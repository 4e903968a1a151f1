import ScanCircuit.Proofs.Command.Delivery

/-!
# The footprint of a compilation

While a compilation delivers its outputs, the files that differ from those it found are its
destinations and the hidden files of the outputs that still wait. An output stops waiting in one
of three ways: it is moved into place, it cannot be moved and is deleted, or another output fails
and it is withdrawn. Each of them leaves nothing in its hidden file, so in the end nothing but the
destinations has changed, whether the compilation succeeds or not.
-/

namespace ScanCircuit

open Command

/-- A file that is there is deleted. -/
theorem FileTree.remove_of_spot? {tree : FileTree} {here place : Location} {path : Path}
    {entry : Entry} (spot : tree.spot? here path = some place)
    (found : tree.find? place = some entry) : tree.remove here path = .ok (tree.erase place) := by
  obtain ⟨parent, name, located, short, free, rfl⟩ := spot?_eq_some.1 spot
  have long : ¬ name.utf8ByteSize > maxName := Nat.not_lt.2 short
  simp only [FileTree.remove, entryAt, located, child?, long, if_false, found, bind, Except.bind,
    pure, Except.pure]
  cases entry with
  | directory => exact absurd found free
  | file _ | device _ | program => rfl

namespace Machine

variable {machine start before after : Machine}

/-! ## Conditions on actions -/

section Conditions

variable {α β : Type} {holds failure : Machine → Prop} {action : Action α}

/-- From a machine that meets a condition the action ends at one that meets the second condition
if it succeeds, and the third if it fails. -/
def Ensures (holds : Machine → Prop) (action : Action α) (success : α → Machine → Prop)
    (failure : Machine → Prop) : Prop :=
  ∀ machine, holds machine →
    match machine.execute action with
    | (.ok value, after) => success value after
    | (.error _, after) => failure after

theorem ensures_pure (value : α) : Ensures holds (pure value) (fun _ => holds) failure :=
  fun _ met => met

theorem Ensures.bind {next : α → Action β} {between : α → Machine → Prop}
    {success : β → Machine → Prop} (first : Ensures holds action between failure)
    (rest : ∀ value, Ensures (between value) (next value) success failure) :
    Ensures holds (action >>= next) success failure := by
  intro machine met
  have reached := first machine met
  rw [execute_bind]
  cases ran : machine.execute action with
  | mk result after =>
      rw [ran] at reached
      cases result with
      | ok value => exact rest value after reached
      | error error => exact reached

/-- A condition that is met in either case. -/
theorem Ensures.reached {condition : Machine → Prop}
    (ensures : Ensures holds action (fun _ => condition) condition) (met : holds machine) :
    condition (machine.execute action).2 := by
  have reached := ensures machine met
  cases ran : machine.execute action with
  | mk result after =>
      rw [ran] at reached
      cases result with
      | ok _ => exact reached
      | error _ => exact reached

/-- What a failure leaves is what remains once the output that guards the action is withdrawn. -/
theorem Ensures.guarding {staged : Option Staged} {success : α → Machine → Prop}
    {failed : Machine → Prop} (guarded : Ensures holds action success failed)
    (withdrawn : ∀ machine, failed machine →
      failure ((withdrawAny staged : StateM Machine Unit).run machine).2) :
    Ensures holds (guarding staged action) success failure := by
  intro machine met
  have reached := guarded machine met
  rw [execute_guarding]
  cases ran : machine.execute action with
  | mk result after =>
      rw [ran] at reached
      cases result with
      | ok value => exact reached
      | error error => exact withdrawn after reached

end Conditions

/-! ## Outputs that stop waiting -/

/-- A change that leaves a touched file as it was does not count there. -/
theorem Touches.narrow {touched narrower : Location → Prop}
    (change : Touches touched before after)
    (restored : ∀ place, touched place → ¬ narrower place →
      before.files.find? place = after.files.find? place) : Touches narrower before after := by
  refine ⟨change.here, change.stdout, change.files.directories, ?_⟩
  intro place outside
  by_cases inside : touched place
  · exact restored place inside outside
  · exact change.files.elsewhere place inside

/-- The destination of the output, if there is one. -/
def AimsAt (machine : Machine) (dest : Option String) (place : Location) : Prop :=
  ∃ wanted ∈ dest, machine.target? wanted = some place

theorem Touches.aimsAt {touched : Location → Prop} (change : Touches touched before after)
    {dest : Option String} : after.AimsAt dest = before.AimsAt dest := by
  unfold AimsAt
  simp only [change.target?]

/-- The output does not wait any more: nothing is left in its hidden file, and no other file has
changed but its destination. -/
structure Settles (dest : Option String) (before after : Machine) : Prop where
  change : Touches (fun place => before.StagesAt dest place ∨ before.AimsAt dest place) before after
  gone : ∀ place, before.StagesAt dest place → after.files.find? place = none

theorem settles_withdraw (machine : Machine) (staged : Staged) :
    Settles (some staged.dest) machine ((withdraw staged : StateM Machine Unit).run machine).2 where
  change := (touches_withdraw machine staged).mono fun _ staging => .inl (stagesAt_some.2 staging)
  gone hidden stages := by
    have staging := stagesAt_some.1 stages
    have stepped : ((withdraw staged : StateM Machine Unit).run machine).2 =
        (update (fun files => files.remove machine.here staged.path) machine).2 := rfl
    rw [stepped, update]
    cases removed : machine.files.remove machine.here staged.path with
    | ok files =>
        obtain ⟨place, spot, rfl⟩ := FileTree.remove_eq_ok removed
        cases spot.symm.trans staging
        exact (FileTree.find?_erase _ (FileTree.ne_root_of_spot? spot) hidden).trans (if_pos rfl)
    | error error =>
        -- Only a file that is not there cannot be deleted.
        apply Option.eq_none_iff_forall_ne_some.2
        intro entry found
        cases (FileTree.remove_of_spot? staging found).symm.trans removed

theorem settles_withdrawAny (machine : Machine) (wanted : Option String) :
    Settles wanted machine
      ((withdrawAny (wanted.map Staged.mk) : StateM Machine Unit).run machine).2 := by
  cases wanted with
  | none => exact ⟨.refl _ _, by simp [StagesAt]⟩
  | some dest => exact settles_withdraw machine ⟨dest⟩

/-- Moving an output into place settles it, whether it works or not. -/
theorem settles_commit {staged : Staged} {result : Except CommandError Unit}
    (ran : machine.execute (commit staged) = (result, after)) :
    Settles (some staged.dest) machine after := by
  cases result with
  | ok _ =>
      obtain ⟨hidden, place, _, staging, target, _, change, gone, _⟩ := commit_ok ran
      constructor
      · apply change.mono
        intro other touched
        cases touched with
        | inl equal => exact .inl (stagesAt_some.2 (equal ▸ staging))
        | inr equal => exact .inr ⟨staged.dest, rfl, equal ▸ target⟩
      · intro other stages
        cases staging.symm.trans (stagesAt_some.1 stages)
        exact gone
  | error error =>
      rw [execute_commit] at ran
      split at ran
      · cases ran
      · cases ran
        exact settles_withdraw machine staged

theorem settles_commitAny {wanted : Option String} {result : Except CommandError Unit}
    (ran : machine.execute (commitAny (wanted.map Staged.mk)) = (result, after)) :
    Settles wanted machine after := by
  cases wanted with
  | none =>
      cases ran
      exact ⟨.refl _ _, by simp [StagesAt]⟩
  | some dest => exact settles_commit ran

/-! ## Outputs that wait -/

/-- The hidden file of the output does not exist. -/
def Unstaged (machine : Machine) (dest : Option String) : Prop :=
  ∀ place, machine.StagesAt dest place → machine.files.find? place = none

/-- The destinations of a compilation. -/
def Destined (machine : Machine) (args : CompileArgs) (place : Location) : Prop :=
  machine.AimsAt args.output place ∨ machine.AimsAt args.lookup place

/-- What has changed are destinations, and the hidden files of the outputs that wait. -/
def Awaits (start : Machine) (args : CompileArgs) (waiting : List (Option String))
    (machine : Machine) : Prop :=
  Touches (fun place => start.Destined args place ∨ ∃ dest ∈ waiting, start.StagesAt dest place)
    start machine

variable {args : CompileArgs} {waiting : List (Option String)} {dest : Option String}

theorem Awaits.cons (awaits : Awaits start args waiting machine) (dest : Option String) :
    Awaits start args (dest :: waiting) machine := by
  apply awaits.mono
  intro place touched
  exact touched.imp_right fun ⟨other, member, staged⟩ => ⟨other, by simp [member], staged⟩

/-- Outputs are still being prepared, and no device lies in the hidden place of any of them. -/
structure Stages (start : Machine) (args : CompileArgs) (waiting : List (Option String))
    (machine : Machine) : Prop where
  awaits : Awaits start args waiting machine
  stageable : ∀ dest, dest ∈ args.output ∨ dest ∈ args.lookup → machine.Stageable dest

/-- Taking the standard input changes no file. -/
theorem awaits_stdin (start : Machine) (args : CompileArgs) (stdin : List UInt8) :
    Awaits start args [] { start with stdin } :=
  ⟨rfl, rfl, .refl _ _⟩

theorem Stages.initial (freshCircuit : start.Unstaged args.output)
    (freshTable : start.Unstaged args.lookup) (stdin : List UInt8) :
    Stages start args [] { start with stdin } where
  awaits := awaits_stdin start args stdin
  stageable dest wanted hidden device staging := by
    have absent : start.files.find? hidden = none := by
      cases wanted with
      | inl isOutput => exact freshCircuit hidden ⟨dest, isOutput, staging⟩
      | inr isLookup => exact freshTable hidden ⟨dest, isLookup, staging⟩
    simp [absent]

/-- An output that is prepared waits in its hidden file. -/
theorem Stages.put {wanted : String} {hidden : Location}
    (stages : Stages start args waiting machine)
    (staging : machine.staging? wanted = some hidden) (content : List UInt8) :
    Stages start args (some wanted :: waiting)
      { machine with files := machine.files.put hidden (.file content) } where
  awaits := by
    apply (stages.awaits.cons (some wanted)).trans
    apply (touches_stage staging content).mono
    intro place staged
    rw [stages.awaits.staging?] at staged
    exact .inr ⟨some wanted, by simp, stagesAt_some.2 staged⟩
  stageable dest isWanted place device staged := by
    rw [(touches_stage staging content).staging?] at staged
    rw [FileTree.find?_put _ (FileTree.ne_root_of_spot? staging)]
    split
    · simp
    · exact stages.stageable dest isWanted place device staged

/-- Preparing an output fails without any change, or the output waits. -/
theorem ensures_stageAny (content : String)
    (wanted : ∀ name ∈ dest, name ∈ args.output ∨ name ∈ args.lookup) :
    Ensures (Stages start args waiting) (stageAny content dest)
      (fun staged after => staged = dest.map Staged.mk ∧ Stages start args (dest :: waiting) after)
      (Awaits start args waiting) := by
  intro machine stages
  cases dest with
  | none => exact ⟨rfl, stages.awaits.cons none, stages.stageable⟩
  | some name =>
      rw [stageAny, execute_map]
      cases execute_stage (stages.stageable name (wanted name rfl)) content with
      | inl failed =>
          obtain ⟨_, error, failed⟩ := failed
          rw [failed]
          exact stages.awaits
      | inr stored =>
          obtain ⟨hidden, staging, stored⟩ := stored
          rw [stored]
          exact ⟨rfl, stages.put staging _⟩

/-- An output that stops waiting leaves its hidden file as it was before the delivery. -/
theorem Awaits.settle (awaits : Awaits start args (dest :: waiting) before)
    (fresh : start.Unstaged dest)
    (aims : ∀ place, start.AimsAt dest place → start.Destined args place)
    (settled : Settles dest before after) : Awaits start args waiting after := by
  obtain ⟨step, gone⟩ := settled
  rw [awaits.stagesAt, awaits.aimsAt] at step
  rw [awaits.stagesAt] at gone
  have whole : Awaits start args (dest :: waiting) after := by
    refine awaits.trans (step.mono ?_)
    intro place touched
    cases touched with
    | inl stages => exact .inr ⟨dest, by simp, stages⟩
    | inr aimed => exact .inl (aims place aimed)
  apply whole.narrow
  intro place touched outside
  have stages : start.StagesAt dest place := by
    obtain destined | ⟨other, member, stages⟩ := touched
    · exact absurd (.inl destined) outside
    · cases List.mem_cons.1 member with
      | inl equal => exact equal ▸ stages
      | inr earlier => exact absurd (.inr ⟨other, earlier, stages⟩) outside
  rw [fresh place stages, gone place stages]

/-- Moving the last output that waits into place settles it, whether it works or not. -/
theorem ensures_commitAny (fresh : start.Unstaged dest)
    (aims : ∀ place, start.AimsAt dest place → start.Destined args place) :
    Ensures (Awaits start args (dest :: waiting)) (commitAny (dest.map Staged.mk))
      (fun _ => Awaits start args waiting) (Awaits start args waiting) := by
  intro machine awaits
  cases ran : machine.execute (commitAny (dest.map Staged.mk)) with
  | mk result after =>
      have reached := awaits.settle fresh aims (settles_commitAny ran)
      cases result with
      | ok _ => exact reached
      | error _ => exact reached

/-! ## The whole delivery -/

/-- A delivery changes no file but the destinations, whether it succeeds or fails. -/
theorem ensures_deliver (compilation : Compilation) (freshCircuit : start.Unstaged args.output)
    (freshTable : start.Unstaged args.lookup) :
    Ensures (Stages start args []) (deliver args compilation) (fun _ => Awaits start args [])
      (Awaits start args []) := by
  have withdrawn (machine : Machine) (awaits : Awaits start args [args.lookup] machine) :
      Awaits start args []
        ((withdrawAny (args.lookup.map Staged.mk) : StateM Machine Unit).run machine).2 :=
    awaits.settle freshTable (fun _ => .inr) (settles_withdrawAny machine args.lookup)
  unfold deliver
  apply (ensures_stageAny compilation.table.render fun _ => .inr).bind
  rintro _ first ⟨rfl, table⟩
  refine Ensures.bind ((ensures_stageAny _ fun _ => .inl).guarding withdrawn) ?_ first table
  rintro _ second ⟨rfl, both⟩
  refine Ensures.bind ((ensures_commitAny freshCircuit fun _ => .inl).guarding withdrawn) ?_ second
    both.awaits
  intro _
  exact (ensures_commitAny freshTable fun _ => .inr).bind fun _ => ensures_pure _

/-- A compilation changes no file but the destinations, whether it succeeds or fails. -/
theorem awaits_compile (quiet : start.Quiet args.input)
    (freshCircuit : start.Unstaged args.output) (freshTable : start.Unstaged args.lookup) :
    Awaits start args [] (start.execute (compile args)).2 := by
  obtain ⟨stdin, early | ⟨compilation, _, delivery⟩⟩ := execute_compile quiet
  · obtain ⟨⟨error, failed⟩, _⟩ := early
    rw [failed]
    exact awaits_stdin start args stdin
  · rw [delivery]
    apply (ensures_deliver compilation freshCircuit freshTable).reached
    exact .initial freshCircuit freshTable stdin

end Machine

namespace Command

open Machine

variable {machine : Machine} {args : CompileArgs}

/-- Whether a compilation succeeds or fails, every file is as before except for the destinations,
and nothing is left in the hidden files of its outputs, if there was nothing before. -/
theorem compile_changes_destinations (quiet : machine.Quiet args.input)
    (unstaged : ∀ dest, dest ∈ args.output ∨ dest ∈ args.lookup →
      machine.files.held machine.here (Path.ofString dest).staging = none) :
    let after := (machine.execute (compile args)).2
    (∀ place, ¬ machine.Destined args place →
      after.files.find? place = machine.files.find? place) ∧
    (∀ path, (∀ place ∈ machine.files.spot? machine.here path, ¬ machine.Destined args place) →
      after.files.held machine.here path = machine.files.held machine.here path) ∧
    ∀ dest, dest ∈ args.output ∨ dest ∈ args.lookup →
      ∀ hidden ∈ machine.staging? dest, ¬ machine.Destined args hidden →
        after.files.find? hidden = none := by
  intro after
  have fresh (dest : Option String)
      (wanted : ∀ name ∈ dest, name ∈ args.output ∨ name ∈ args.lookup) :
      machine.Unstaged dest := by
    rintro place ⟨name, isDest, staging⟩
    rw [← FileTree.held_of_spot? staging]
    exact unstaged name (wanted name isDest)
  have freshCircuit := fresh args.output fun _ => .inl
  have freshTable := fresh args.lookup fun _ => .inr
  have change : Touches (machine.Destined args) machine after := by
    apply (awaits_compile quiet freshCircuit freshTable).mono
    simp
  have elsewhere (place : Location) (other : ¬ machine.Destined args place) :
      after.files.find? place = machine.files.find? place :=
    (change.files.elsewhere place other).symm
  refine ⟨elsewhere, ?_, ?_⟩
  · intro path others
    exact (change.files.held others).symm
  · intro dest wanted hidden staging other
    rw [elsewhere hidden other, ← FileTree.held_of_spot? staging]
    exact unstaged dest wanted

theorem compile_changes_destinations_directory :
    let machine := graphMachine [("d", .directory), ("other", .file [0x30])]
    let args := graphArgs "out.circom" "d"
    let run := machine.execute (compile args)
    let at? (name : String) := run.2.files.find? (FileTree.workplace ++ [name])
    run.1 = .error (.write "d" .isDirectory) ∧ at? "other" = some (.file [0x30]) ∧
      at? ".d.tmp" = none ∧ at? ".out.circom.tmp" = none := by
  intro machine args run at?
  have unstaged : ∀ dest, dest ∈ args.output ∨ dest ∈ args.lookup →
      machine.files.held machine.here (Path.ofString dest).staging = none := by
    rintro dest (isOutput | isLookup)
    · cases isOutput
      decide +kernel
    · cases isLookup
      decide +kernel
  have destined (place : Location) : machine.Destined args place →
      place = FileTree.workplace ++ ["out.circom"] := by
    rintro (⟨name, isOutput, target⟩ | ⟨name, isLookup, target⟩)
    · cases isOutput
      have found : machine.target? "out.circom" = some (FileTree.workplace ++ ["out.circom"]) := by
        decide +kernel
      exact Option.some.inj (target.symm.trans found)
    · cases isLookup
      have missing : machine.target? "d" = none := by decide +kernel
      cases target.symm.trans missing
  have apart (name : String) (other : name ≠ "out.circom") :
      ¬ machine.Destined args (FileTree.workplace ++ [name]) := by
    intro isDest
    have same := destined _ isDest
    simp [other] at same
  have quiet : machine.Quiet args.input := quiet_of_unpatterned rfl
  obtain ⟨elsewhere, _, hidden⟩ := compile_changes_destinations quiet unstaged
  have found : machine.files.find? (FileTree.workplace ++ ["other"]) = some (.file [0x30]) := by
    decide +kernel
  have table : machine.staging? "d" = some (FileTree.workplace ++ [".d.tmp"]) := by
    decide +kernel
  have circuit : machine.staging? "out.circom" =
      some (FileTree.workplace ++ [".out.circom.tmp"]) := by
    decide +kernel
  have failed : run.1 = .error (.write "d" .isDirectory) := by decide +kernel
  refine ⟨failed, ?_, ?_, ?_⟩
  -- With its name opened up here, the run is not executed to be compared with itself.
  all_goals dsimp only [at?, run]
  · exact (elsewhere _ (apart "other" (by decide))).trans found
  · exact hidden "d" (.inr rfl) _ table (apart ".d.tmp" (by decide))
  · exact hidden "out.circom" (.inl rfl) _ circuit (apart ".out.circom.tmp" (by decide))

end Command

end ScanCircuit
