import CodecChain.Proofs.Config.Saving
import CodecChain.Proofs.Workspace.Keeping
import CodecChain.Proofs.Workspace.MissingInput

/-
  Workspaces that are set up. An initialisation that succeeds
  leaves a workspace in which all is there that it and a run
  look for. A further one finds nothing to do, and a run asks
  for nothing and writes no file but the one at its output.

  Key definitions include:
    * `Attempt.WritesAt`
    * `Workspace.IsSettled`

  Main statements:
    * `Workspace.isSettled_of_initialise`
    * `Workspace.IsSettled.on_initialise`
    * `Workspace.writesAt_runReady`
    * `Workspace.settles_workspace`
-/

------------------------------------------------------------
-- Writing at One Path
------------------------------------------------------------

namespace CodecChain

variable {α β : Type} {p : Path}

namespace Attempt

/- An attempt that writes at most the file that a path names. -/
def WritesAt
    (p : Path)
    (attempt : Attempt α) : Prop :=
  ∀ machine : Machine,
    machine.files.Grows (fun other _ => other = p)
      (attempt.on machine).2.files

theorem KeepsFiles.writesAt
    {attempt : Attempt α}
    (h : attempt.KeepsFiles) :
    attempt.WritesAt p := by
  intro machine
  rw [h machine]
  exact .refl

theorem WritesAt.bind
    {attempt : Attempt α}
    {next : α → Attempt β}
    (hFirst : attempt.WritesAt p)
    (hNext : ∀ a, (next a).WritesAt p) :
    (attempt >>= next).WritesAt p := by
  intro machine
  apply rel_on_bind
    (R := fun a b : Machine =>
      a.files.Grows (fun other _ => other = p) b.files)
    FileSystem.Grows.trans (hFirst machine)
  intro a between _
  exact hNext a between

end Attempt

end CodecChain

------------------------------------------------------------
-- Settled Workspaces
------------------------------------------------------------

namespace CodecChain

namespace Workspace

variable {config : Config} {force : Bool}
variable {machine machine' : Machine}

/- A workspace in which all is there that is looked for. -/
structure IsSettled
    (config : Config)
    (files : FileSystem) : Prop where
  marker : files.contains config.markerPath = true
  input : files.contains config.inputPath = true
  parameters : files.contains config.parametersPath = true
  settings : files.contains Config.localName = true

/- What has been set up is marked, whatever was there before. -/
theorem contains_marker_of_provision
    {done : Provisioning}
    (h : Attempt.on (provision config force) machine =
      (.ok done, machine')) :
    machine'.files.contains config.markerPath = true := by
  rw [provision,
    Attempt.on_bind_of_ok _ (Attempt.on_contains _ machine)]
    at h
  split at h
  · rename_i hMarked
    cases h
    rw [Bool.and_eq_true] at hMarked
    exact hMarked.1
  · rcases Attempt.on_bind_eq_ok_iff.mp h with
      ⟨guides, between, -, hMarker⟩
    rcases Attempt.on_bind_eq_ok_iff.mp hMarker with
      ⟨markers, after, hMarker, hPure⟩
    cases hPure
    rw [provideMarker,
      Attempt.on_bind_of_ok _ (Attempt.on_time between)]
      at hMarker
    rcases Attempt.on_bind_eq_ok_iff.mp hMarker with
      ⟨⟨⟩, written, hWrite, hPure⟩
    cases hPure
    exact FileSystem.contains_of_read (read_of_writeFile hWrite)

end Workspace

namespace Command

variable {config : Config} {force : Bool}
variable {machine machine' : Machine}

theorem onlyWrites_ensureConfigFile (config : Config) :
    Attempt.OnlyWrites (fun _ _ => True)
      (ensureConfigFile config) := by
  intro machine
  rw [ensureConfigFile,
    Attempt.on_bind_of_ok _ (Attempt.on_contains _ machine)]
  split
  · exact .refl machine
  · exact (Attempt.OnlyWrites.attempt
      (onlyWrites_save trivial)).bind (fun _ => .pure _) machine

theorem contains_of_ensureConfigFile
    {created : List Path}
    (h : Attempt.on (ensureConfigFile config) machine =
      (.ok created, machine')) :
    machine'.files.contains Config.localName = true := by
  rw [ensureConfigFile,
    Attempt.on_bind_of_ok _ (Attempt.on_contains _ machine)]
    at h
  split at h
  · rename_i hThere
    cases h
    exact hThere
  · rcases Attempt.on_bind_eq_ok_iff.mp h with
      ⟨⟨⟩, saved, hSave, hPure⟩
    cases hPure
    rw [Attempt.on_attempt, Prod.mk.injEq,
      Except.mapError_eq_ok_iff] at hSave
    rcases Config.on_save_eq_ok_iff.mp
        (Prod.ext hSave.1 hSave.2) with
      ⟨between, -, hWritten⟩
    have hFiles :=
      (Config.on_writeText_eq_ok_iff.mp hWritten).1
    exact FileSystem.contains_of_read
      (FileSystem.read_of_write hFiles)

theorem ensureConfigFile_of_contains
    (h : machine.files.contains Config.localName = true) :
    Attempt.on (ensureConfigFile config) machine =
      (.ok [], machine) := by
  rw [ensureConfigFile,
    Attempt.on_bind_of_ok _ (Attempt.on_contains _ machine), h]
  rfl

end Command

namespace Workspace

variable {config : Config} {instructions : Option Text}
variable {force : Bool} {machine machine' : Machine}

------------------------------------------------------------
-- Initialisations
------------------------------------------------------------

/-
  After an initialisation all is there. Each part adds what it
  is for, and what was there before it stays there.
-/
theorem isSettled_of_initialise
    (h : Attempt.on (Command.initialise config force) machine =
      (.ok (), machine')) :
    IsSettled config machine'.files := by
  rcases Attempt.on_bind_eq_ok_iff.mp h with
    ⟨done, ready, hProvision, h⟩
  rcases Attempt.on_bind_eq_ok_iff.mp h with
    ⟨⟨⟩, shown, hShown, h⟩
  rcases Attempt.on_bind_eq_ok_iff.mp h with
    ⟨created, filled, hInputs, h⟩
  rcases Attempt.on_bind_eq_ok_iff.mp h with
    ⟨⟨⟩, listed, hListed, h⟩
  rcases Attempt.on_bind_eq_ok_iff.mp h with
    ⟨settings, saved, hSettings, hLast⟩
  have hShownFiles :=
    Command.keepsFiles_showProvisioning config done ready
  have hListedFiles :=
    Command.keepsFiles_showCreated created filled
  have hLastFiles :=
    Command.keepsFiles_showCreated settings saved
  rw [hShown] at hShownFiles
  rw [hListed] at hListedFiles
  rw [hLast] at hLastFiles
  have hMarker := contains_marker_of_provision hProvision
  have hEnsures := ensureFiles_eq_ok_iff.mp hInputs
  have hSaved :=
    Command.onlyWrites_ensureConfigFile config listed
  rw [hSettings] at hSaved
  have hLater {p : Path}
      (hThere : filled.files.contains p = true) :
      machine'.files.contains p = true := by
    rw [hLastFiles]
    rw [← hListedFiles] at hThere
    exact hSaved.1.contains hThere
  refine
    { marker := hLater (hEnsures.grows.1.contains ?_)
      input :=
        hLater (hEnsures.contains_of_mem List.mem_cons_self)
      parameters :=
        hLater (hEnsures.contains_of_mem
          (List.mem_cons_of_mem _ List.mem_cons_self))
      settings := ?_ }
  · rw [hShownFiles]
    exact hMarker
  · rw [hLastFiles]
    exact Command.contains_of_ensureConfigFile hSettings

/- What is said of a workspace that has been set up before. -/
def alreadyProvisioned (config : Config) : Text :=
  .ofString "Workspace already provisioned (" ++
    config.markerPath ++ .ofString " exists)." ++ ['\n']

namespace IsSettled

/- All inputs are there, with and without instructions. -/
theorem ensureInputs_eq
    (h : IsSettled config machine.files)
    (needParameters : Bool) :
    Attempt.on (ensureInputs config needParameters) machine =
      (.ok [], machine) := by
  apply ensureFiles_eq_ok_iff.mpr
  cases needParameters with
  | false => exact .present h.input .nil
  | true => exact .present h.input (.present h.parameters .nil)

/- An initialisation says that there is nothing to do. -/
theorem on_initialise
    (h : IsSettled config machine.files) :
    Attempt.on (Command.initialise config false) machine =
      (.ok (),
        { machine with
          output := machine.output ++
            alreadyProvisioned config }) := by
  have hShown :
      Attempt.on
          (liftM (Command.showProvisioning config .alreadyDone :
            Simulated Unit)) machine =
        (.ok (),
          { machine with
            output := machine.output ++
              alreadyProvisioned config }) :=
    rfl
  rw [Command.initialise,
    Attempt.on_bind_of_ok _ (provision_of_marked h.marker),
    Attempt.on_bind_of_ok _ hShown]
  generalize hSaid :
    { machine with
      output := machine.output ++
        alreadyProvisioned config } = said
  have hSettled : IsSettled config said.files := by
    rw [← hSaid]
    exact h
  have hNothing :
      Attempt.on
          (liftM (Command.showCreated [] : Simulated Unit))
          said = (.ok (), said) := by
    show
      (Except.ok (), { said with output := said.output ++ [] }) =
        (.ok (), said)
    rw [List.append_nil]
  rw [Attempt.on_bind_of_ok _ (hSettled.ensureInputs_eq true),
    Attempt.on_bind_of_ok _ hNothing,
    Attempt.on_bind_of_ok _
      (Command.ensureConfigFile_of_contains hSettled.settings)]
  exact hNothing

end IsSettled

------------------------------------------------------------
-- Runs
------------------------------------------------------------

theorem writesAt_writeReport
    (config : Config)
    (chain : Chain)
    (content : Text)
    (e : Execution) :
    Attempt.WritesAt config.outputPath
      (writeReport config chain content e) := by
  apply Attempt.WritesAt.bind
  · exact fun machine => (onlyWrites_writeFile rfl machine).1
  · intro _
    exact Attempt.KeepsFiles.writesAt fun _ => rfl

variable [Compressor]

/-
  A run with all its inputs writes its report at most. Reading
  and asking for values touch no file.
-/
theorem writesAt_runReady
    (config : Config)
    (instructions : Option Text)
    (source : Source) :
    Attempt.WritesAt config.outputPath
      (runReady config instructions source.provider
        source.carryOut) := by
  apply Attempt.WritesAt.bind
  · apply Attempt.KeepsFiles.writesAt
    intro machine
    rcases exists_on_readFile config.inputPath
      config.trimContent machine with ⟨result, hRead⟩
    rw [hRead]
  intro content
  apply Attempt.WritesAt.bind
  · apply Attempt.KeepsFiles.writesAt
    intro machine
    rcases exists_on_readInstructions config instructions
      machine with ⟨result, hRead⟩
    rw [hRead]
  intro text
  apply Attempt.WritesAt.bind
  · exact Attempt.KeepsFiles.writesAt fun _ => rfl
  intro chain
  apply Attempt.WritesAt.bind
  · apply Attempt.KeepsFiles.writesAt
    intro machine
    exact source.keeps chain content machine
  intro outcome
  cases outcome with
  | completed e => exact writesAt_writeReport config _ _ _
  | interrupted error reached =>
      exact Attempt.KeepsFiles.writesAt fun _ => rfl

namespace IsSettled

variable {source : Source}

/- In a settled workspace a run goes on to its chain at once. -/
theorem on_run_eq
    (h : IsSettled config machine.files) :
    Attempt.on
        (run config instructions source.provider
          source.carryOut) machine =
      Attempt.on
        (runReady config instructions source.provider
          source.carryOut) machine := by
  rw [on_run source.provider source.carryOut
    (provision_of_marked h.marker) (h.ensureInputs_eq _),
    if_pos rfl]

theorem run_ne_needsInput
    (h : IsSettled config machine.files)
    (created : List Path)
    (after : Machine) :
    Attempt.on
        (run config instructions source.provider
          source.carryOut) machine ≠
      (.ok (.needsInput created), after) := by
  rw [h.on_run_eq]
  exact runReady_ne_needsInput _ _ created

/- A run changes nothing but the file at its output. -/
theorem grows_run
    (h : IsSettled config machine.files) :
    machine.files.Grows
      (fun p _ => p = config.outputPath)
      ((Errand.run config instructions source).after
        machine).files := by
  rcases exists_ends config instructions source machine with
    ⟨result, after, hRun, hFiles, -⟩
  have hGrows :=
    writesAt_runReady config instructions source machine
  rw [← h.on_run_eq, hRun] at hGrows
  rw [hFiles]
  exact hGrows

end IsSettled

/-
  An initialisation that succeeds settles the workspace,
  forced or not, whatever the paths of the configuration are
  and whatever was there before: the marker, the inputs and
  the settings are there. A further one that is not forced
  says so, and changes no file. A run does not ask for
  its inputs, and whatever it does, an entry of the files is
  afterwards as it was, unless it is a file and the one that
  the output path leads to.
-/
theorem settles_workspace
    (h : Attempt.on (Command.initialise config force) machine =
      (.ok (), machine')) :
    IsSettled config machine'.files ∧
    (Attempt.on (provision config false) machine' =
        (.ok .alreadyDone, machine') ∧
      Attempt.on (ensureInputs config true) machine' =
        (.ok [], machine') ∧
      Attempt.on (Command.initialise config false) machine' =
        (.ok (),
          { machine' with
            output := machine'.output ++
              alreadyProvisioned config })) ∧
    ∀ instructions (source : Source),
      let after :=
        (Errand.run config instructions source).after machine'
      (∀ created,
        (Attempt.on
          (run config instructions source.provider
            source.carryOut) machine').1 ≠
          .ok (.needsInput created)) ∧
      (∀ place entry,
        machine'.files.get? place = some entry →
        after.files.get? place = some entry ∨
          (∃ bytes, entry = .file bytes) ∧
            after.files.resolve config.outputPath =
              .ok place) := by
  have hSettled := isSettled_of_initialise h
  refine ⟨hSettled, ⟨provision_of_marked hSettled.marker,
    hSettled.ensureInputs_eq true, hSettled.on_initialise⟩, ?_⟩
  intro instructions source
  constructor
  · intro created hAsks
    exact hSettled.run_ne_needsInput created _
      (Prod.ext hAsks rfl)
  · intro place entry hEntry
    cases hSettled.grows_run.grewAt place with
    | kept hSame => exact Or.inl (hSame.trans hEntry)
    | directory hFree _ =>
        rw [hFree] at hEntry
        cases hEntry
    | file hBefore hWrites hPlace _ =>
        subst hWrites
        refine Or.inr ⟨?_, hPlace⟩
        cases entry with
        | file bytes => exact ⟨bytes, rfl⟩
        | directory => exact absurd hEntry hBefore

end Workspace

end CodecChain

------------------------------------------------------------
-- A Workspace With Equal Paths
------------------------------------------------------------

namespace CodecChain

namespace Workspace

/-
  An empty machine and a configuration that takes content and
  instructions from one file, and writes the report there.
-/
theorem settles_workspace_of_equal_paths :
    let config : Config :=
      { Config.default with
        parametersPath := Config.default.inputPath
        outputPath := Config.default.inputPath }
    ∃ machine',
      Attempt.on (Command.initialise config true) blank =
        (.ok (), machine') ∧
      (Attempt.on (Command.initialise config false)
          machine').1 = .ok () ∧
      ∀ created,
        (Attempt.on
          (run config none (Source.ofValues []).provider
            (Source.ofValues []).carryOut) machine').1 ≠
          .ok (.needsInput created) := by
  intro config
  have hDone :
      (Attempt.on (Command.initialise config true) blank).1 =
        .ok () := by
    apply Except.eq_ok_of_toOption
    decide +kernel
  have hInitialised :
      Attempt.on (Command.initialise config true) blank =
        (.ok (),
          (Attempt.on (Command.initialise config true) blank).2) :=
    Prod.ext hDone rfl
  rcases settles_workspace hInitialised with
    ⟨-, ⟨-, -, hAgain⟩, hRun⟩
  refine ⟨_, hInitialised, congrArg Prod.fst hAgain, ?_⟩
  exact (hRun none (.ofValues [])).1

end Workspace

end CodecChain
