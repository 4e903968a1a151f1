import ScanCircuit.Proofs.Command.Execution
import ScanCircuit.Proofs.Files.Staging

/-!
# Outputs of commands

What preparing an output, moving it into place and deleting it do to the files of a
machine. Each step touches the hidden file of the output and, once it is moved, its
destination; every other file, the directories and the standard output stay as they are.
-/

namespace ScanCircuit

open Command

namespace Machine

/-- The location of an output once it is in place, if it can be put there. -/
def target? (machine : Machine) (dest : String) : Option Location :=
  machine.files.spot? machine.here (Path.ofString dest)

/-- The location of an output while it is prepared. -/
def staging? (machine : Machine) (dest : String) : Option Location :=
  machine.files.spot? machine.here (Path.ofString dest).staging

/-- What is found at the destination of an output. -/
def held (machine : Machine) (dest : String) : Option Entry :=
  machine.files.held machine.here (Path.ofString dest)

/-- Nothing is printed, and only the touched files change. -/
structure Touches (touched : Location → Prop) (before after : Machine) : Prop where
  here : after.here = before.here
  stdout : after.stdout = before.stdout
  files : before.files.Touches touched after.files

variable {machine before between after : Machine} {touched : Location → Prop} {dest : String}

theorem Touches.refl (touched : Location → Prop) (machine : Machine) :
    Touches touched machine machine :=
  ⟨rfl, rfl, .refl touched machine.files⟩

theorem Touches.trans (first : Touches touched before between)
    (second : Touches touched between after) : Touches touched before after :=
  ⟨second.here.trans first.here, second.stdout.trans first.stdout, first.files.trans second.files⟩

theorem Touches.mono {wider : Location → Prop} (change : Touches touched before after)
    (included : ∀ place, touched place → wider place) : Touches wider before after :=
  ⟨change.here, change.stdout, change.files.mono included⟩

theorem Touches.target? (change : Touches touched before after) :
    after.target? dest = before.target? dest := by
  unfold Machine.target?
  rw [change.here, change.files.directories.spot?]

theorem Touches.staging? (change : Touches touched before after) :
    after.staging? dest = before.staging? dest := by
  unfold Machine.staging?
  rw [change.here, change.files.directories.spot?]

theorem Touches.held (change : Touches touched before after)
    (untouched : ∀ place ∈ before.target? dest, ¬ touched place) :
    after.held dest = before.held dest := by
  unfold Machine.held
  rw [change.here, change.files.held untouched]

theorem held_eq_find? {place : Location} (target : machine.target? dest = some place) :
    machine.held dest = machine.files.find? place :=
  FileTree.held_of_spot? target

theorem staging?_ne_target? {hidden place : Location} (staged : machine.staging? dest = some hidden)
    (target : machine.target? dest = some place) : hidden ≠ place :=
  FileTree.spot?_staging_ne target staged

/-! ## Single outputs -/

/-- No device lies where the output is prepared. -/
def Stageable (machine : Machine) (dest : String) : Prop :=
  ∀ hidden device, machine.staging? dest = some hidden →
    machine.files.find? hidden ≠ some (.device device)

theorem stageable_of_plain (plain : machine.files.Plain) (dest : String) :
    machine.Stageable dest :=
  fun _ device staged => plain.staging staged device

/-- An output is prepared in its hidden file, or there is no place for that file and nothing
happens. -/
theorem execute_stage (stageable : machine.Stageable dest) (content : String) :
    (machine.staging? dest = none ∧
        ∃ error, machine.execute (stage dest content) = (.error error, machine)) ∨
      ∃ hidden, machine.staging? dest = some hidden ∧
        machine.execute (stage dest content) =
          (.ok ⟨dest⟩, { machine with
            files := machine.files.put hidden (.file (Text.Utf8.encode content)) }) := by
  cases wrote : machine.files.write machine.here (Path.ofString dest).staging
      (Text.Utf8.encode content) with
  | error error =>
      left
      constructor
      · apply Option.eq_none_iff_forall_ne_some.2
        intro hidden staging
        cases wrote.symm.trans ((FileTree.write_eq_ok stageable).2 ⟨hidden, staging, rfl⟩)
      · refine ⟨.write dest error, ?_⟩
        unfold stage
        rw [execute_lift (by rw [run_write, Machine.write, Staged.path, wrote])]
        rfl
  | ok written =>
      right
      obtain ⟨hidden, staged, rfl⟩ := (FileTree.write_eq_ok stageable).1 wrote
      refine ⟨hidden, staged, ?_⟩
      unfold stage
      rw [execute_lift (by rw [run_write, Machine.write, Staged.path, wrote])]
      rfl

/-- Preparing an output touches its hidden file only. -/
theorem touches_stage {hidden : Location} (staging : machine.staging? dest = some hidden)
    (content : List UInt8) :
    Touches (machine.staging? dest = some ·) machine
      { machine with files := machine.files.put hidden (.file content) } := by
  refine ⟨rfl, rfl, ?_⟩
  have below := FileTree.ne_root_of_spot? staging
  apply (FileTree.touches_put below (FileTree.free_of_spot? staging) (by simp)).mono
  intro place equal
  rw [equal]
  exact staging

/-- What waits in the hidden file of an output that is prepared. -/
theorem stage_ok {content : String} {staged : Staged} (plain : machine.files.Plain)
    (ran : machine.execute (stage dest content) = (.ok staged, after)) :
    staged = ⟨dest⟩ ∧ Touches (machine.staging? dest = some ·) machine after ∧
      after.files.Plain ∧ ∃ hidden, machine.staging? dest = some hidden ∧
        after.files.find? hidden = some (.file (Text.Utf8.encode content)) := by
  cases execute_stage (stageable_of_plain plain dest) content with
  | inl failed =>
      obtain ⟨_, error, failed⟩ := failed
      rw [failed] at ran
      cases ran
  | inr stored =>
      obtain ⟨hidden, staging, stored⟩ := stored
      rw [stored] at ran
      cases ran
      have below := FileTree.ne_root_of_spot? staging
      refine ⟨rfl, touches_stage staging _, plain.put below _, hidden, staging, ?_⟩
      rw [FileTree.find?_put _ below, if_pos rfl]

/-- An output that is not prepared has no place for its hidden file. -/
theorem stage_error {content : String} {error : CommandError} (plain : machine.files.Plain)
    (ran : machine.execute (stage dest content) = (.error error, after)) :
    after = machine ∧ machine.staging? dest = none := by
  cases execute_stage (stageable_of_plain plain dest) content with
  | inl failed =>
      obtain ⟨unavailable, error, failed⟩ := failed
      rw [failed] at ran
      cases ran
      exact ⟨rfl, unavailable⟩
  | inr stored =>
      obtain ⟨hidden, staging, stored⟩ := stored
      rw [stored] at ran
      cases ran

/-- Deleting an output touches its hidden file only. -/
theorem touches_withdraw (machine : Machine) (staged : Staged) :
    Touches (machine.staging? staged.dest = some ·) machine
      ((withdraw staged : StateM Machine Unit).run machine).2 := by
  have stepped : ((withdraw staged : StateM Machine Unit).run machine).2 =
      (update (fun files => files.remove machine.here staged.path) machine).2 := rfl
  cases removed : machine.files.remove machine.here staged.path with
  | error error =>
      simp only [stepped, update, removed]
      exact .refl _ _
  | ok files =>
      simp only [stepped, update, removed]
      obtain ⟨hidden, spot, rfl⟩ := FileTree.remove_eq_ok removed
      refine ⟨rfl, rfl, ?_⟩
      have below := FileTree.ne_root_of_spot? spot
      apply (FileTree.touches_erase below (FileTree.free_of_spot? spot)).mono
      intro place equal
      rw [equal]
      exact spot

/-- An output is moved into place, or deleted. -/
theorem execute_commit (machine : Machine) (staged : Staged) :
    machine.execute (commit staged) =
      match machine.files.rename machine.here staged.path (Path.ofString staged.dest) with
      | .ok files => (.ok (), { machine with files })
      | .error error =>
          (.error (.write staged.dest error),
            ((withdraw staged : StateM Machine Unit).run machine).2) := by
  unfold commit
  cases renamed : machine.files.rename machine.here staged.path (Path.ofString staged.dest) with
  | ok files =>
      rw [execute_lift (by rw [run_rename, update, renamed])]
      rfl
  | error error =>
      rw [execute_lift (by rw [run_rename, update, renamed])]
      rfl

/-- An output that is in place has left its hidden file. -/
theorem commit_ok {staged : Staged} (ran : machine.execute (commit staged) = (.ok (), after)) :
    ∃ hidden place entry, machine.staging? staged.dest = some hidden ∧
      machine.target? staged.dest = some place ∧ machine.files.find? hidden = some entry ∧
      Touches (fun other => other = hidden ∨ other = place) machine after ∧
      after.files.find? hidden = none ∧ after.files.find? place = some entry := by
  rw [execute_commit] at ran
  cases renamed : machine.files.rename machine.here staged.path (Path.ofString staged.dest) with
  | error error => simp [renamed] at ran
  | ok files =>
      simp only [renamed, Prod.mk.injEq, true_and] at ran
      obtain ⟨hidden, place, entry, staging, found, target, moved⟩ :=
        FileTree.rename_eq_ok.1 renamed
      have different := staging?_ne_target? staging target
      rw [if_neg different] at moved
      subst ran moved
      have below := FileTree.ne_root_of_spot? staging
      have placed := FileTree.ne_root_of_spot? target
      refine ⟨hidden, place, entry, staging, target, found, ⟨rfl, rfl, ?_⟩, ?_, ?_⟩
      · exact FileTree.touches_move staging found target different
      · rw [FileTree.find?_put _ placed, if_neg different, FileTree.find?_erase _ below, if_pos rfl]
      · rw [FileTree.find?_put _ placed, if_pos rfl]

/-- An output that is not put into place is deleted. -/
theorem commit_error {staged : Staged} {error : CommandError}
    (ran : machine.execute (commit staged) = (.error error, after)) :
    Touches (machine.staging? staged.dest = some ·) machine after ∧
      (∃ reason, error = .write staged.dest reason) ∧
      ∀ hidden entry, machine.staging? staged.dest = some hidden →
        machine.files.find? hidden = some entry → machine.target? staged.dest = none := by
  rw [execute_commit] at ran
  cases renamed : machine.files.rename machine.here staged.path (Path.ofString staged.dest) with
  | ok files => simp [renamed] at ran
  | error reason =>
      simp only [renamed, Prod.mk.injEq, Except.error.injEq] at ran
      obtain ⟨rfl, rfl⟩ := ran
      refine ⟨touches_withdraw machine staged, ⟨reason, rfl⟩, ?_⟩
      intro hidden entry staging found
      apply Option.eq_none_iff_forall_ne_some.2
      intro place target
      have moved := FileTree.rename_eq_ok.2 ⟨hidden, place, entry, staging, found, target, rfl⟩
      have same := moved.symm.trans renamed
      cases same

/-! ## Outputs that may not be wanted -/

/-- The hidden file of the output, if there is one. -/
def StagesAt (machine : Machine) (dest : Option String) (place : Location) : Prop :=
  ∃ wanted ∈ dest, machine.staging? wanted = some place

@[simp] theorem stagesAt_some {place : Location} :
    machine.StagesAt (some dest) place ↔ machine.staging? dest = some place := by
  simp [StagesAt]

theorem Touches.stagesAt (change : Touches touched before after) {dest : Option String} :
    after.StagesAt dest = before.StagesAt dest := by
  unfold StagesAt
  simp only [change.staging?]

theorem stageAny_some {content : String} {result : Except CommandError (Option Staged)}
    (ran : machine.execute (stageAny content (some dest)) = (result, after)) :
    ∃ single, result = single.map some ∧
      machine.execute (stage dest content) = (single, after) := by
  unfold stageAny at ran
  rw [execute_map] at ran
  cases ran
  exact ⟨_, rfl, rfl⟩

/-- Preparing an output that may not be wanted. -/
theorem stageAny_ok {content : String} {wanted : Option String} {staged : Option Staged}
    (plain : machine.files.Plain)
    (ran : machine.execute (stageAny content wanted) = (.ok staged, after)) :
    staged = wanted.map Staged.mk ∧ Touches (machine.StagesAt wanted) machine after ∧
      after.files.Plain ∧ ∀ dest ∈ wanted, ∃ hidden, machine.staging? dest = some hidden ∧
        after.files.find? hidden = some (.file (Text.Utf8.encode content)) := by
  cases wanted with
  | none =>
      cases ran
      exact ⟨rfl, .refl _ _, plain, by simp⟩
  | some dest =>
      obtain ⟨single, mapped, prepared⟩ := stageAny_some ran
      cases single with
      | error error => cases mapped
      | ok single =>
          cases mapped
          obtain ⟨rfl, change, plainAfter, waits⟩ := stage_ok plain prepared
          refine ⟨rfl, change.mono fun _ => stagesAt_some.2, plainAfter, ?_⟩
          intro other equal
          cases equal
          exact waits

theorem stageAny_error {content : String} {wanted : Option String} {error : CommandError}
    (plain : machine.files.Plain)
    (ran : machine.execute (stageAny content wanted) = (.error error, after)) :
    after = machine ∧ ∃ dest ∈ wanted, machine.staging? dest = none := by
  cases wanted with
  | none => cases ran
  | some dest =>
      obtain ⟨single, mapped, prepared⟩ := stageAny_some ran
      cases single with
      | error error =>
          obtain ⟨unchanged, unavailable⟩ := stage_error plain prepared
          exact ⟨unchanged, dest, rfl, unavailable⟩
      | ok single => cases mapped

theorem commitAny_error {wanted : Option String} {error : CommandError}
    (ran : machine.execute (commitAny (wanted.map Staged.mk)) = (.error error, after)) :
    Touches (machine.StagesAt wanted) machine after ∧
      ∃ dest ∈ wanted, machine.execute (commit ⟨dest⟩) = (.error error, after) := by
  cases wanted with
  | none => cases ran
  | some dest => exact ⟨(commit_error ran).1.mono fun _ => stagesAt_some.2, dest, rfl, ran⟩

theorem touches_withdrawAny (machine : Machine) (wanted : Option String) :
    Touches (machine.StagesAt wanted) machine
      ((withdrawAny (wanted.map Staged.mk) : StateM Machine Unit).run machine).2 := by
  cases wanted with
  | none => exact .refl _ _
  | some dest => exact (touches_withdraw machine ⟨dest⟩).mono fun _ => stagesAt_some.2

/-- An output is deleted only if what it guards fails. -/
theorem execute_guarding {α : Type} (staged : Option Staged) (action : Action α) :
    machine.execute (guarding staged action) =
      match machine.execute action with
      | (.ok value, between) => (.ok value, between)
      | (.error error, between) =>
          (.error error, ((withdrawAny staged : StateM Machine Unit).run between).2) := by
  simp only [guarding, execute, ExceptT.run_tryCatch, StateT.run_bind]
  rcases (action.run.run machine) with ⟨_ | _, _⟩ <;> rfl

/-- A failure deletes the output that guards it. -/
theorem guarding_error {α : Type} {wanted : Option String} {error : CommandError}
    {action : Action α}
    (ran : machine.execute (guarding (wanted.map Staged.mk) action) = (.error error, after)) :
    ∃ between, machine.execute action = (.error error, between) ∧
      Touches (between.StagesAt wanted) between after := by
  rw [execute_guarding] at ran
  split at ran
  · cases ran
  case h_2 failure between failed =>
    cases ran
    exact ⟨between, failed, touches_withdrawAny between wanted⟩

theorem guarding_ok {α : Type} {staged : Option Staged} {value : α} {action : Action α}
    (ran : machine.execute (guarding staged action) = (.ok value, after)) :
    machine.execute action = (.ok value, after) := by
  rw [execute_guarding] at ran
  split at ran
  case h_1 result between succeeded =>
    cases ran
    exact succeeded
  · cases ran

end Machine

end ScanCircuit
