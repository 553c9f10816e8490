import CodecChain.Command.Perform
import CodecChain.Proofs.Files.Climbing
import CodecChain.Proofs.Workspace.Inputs

/-
  Set up as filling in. Whatever a command does before it runs
  a chain, it only writes files that were missing when it
  began, also where it fails on the way.

  Key definitions include:
    * `Attempt.KeepsFiles`
    * `Attempt.FillsIn`
    * `Workspace.Supplies`

  Main statements:
    * `Workspace.fillsIn_provision`
    * `Workspace.fillsIn_ensureInputs`
    * `Command.fillsIn_initialise`
-/

------------------------------------------------------------
-- Attempts and Files
------------------------------------------------------------

namespace CodecChain

variable {α β : Type}
variable {writes writes' : Path → List UInt8 → Prop}
variable {machine : Machine} {p : Path}

namespace Attempt

theorem on_lift (action : Simulated α) :
    on (liftM action) machine =
      (.ok (action.on machine).1, (action.on machine).2) :=
  rfl

/- An attempt that leaves the files as they are. -/
def KeepsFiles (attempt : Attempt α) : Prop :=
  ∀ machine : Machine,
    (attempt.on machine).2.files = machine.files

/- An attempt that only writes files that were missing. -/
def FillsIn
    (writes : Path → List UInt8 → Prop)
    (attempt : Attempt α) : Prop :=
  ∀ machine : Machine,
    machine.files.FillsIn writes (attempt.on machine).2.files

theorem KeepsFiles.fillsIn
    {attempt : Attempt α}
    (h : attempt.KeepsFiles) :
    attempt.FillsIn writes := by
  intro machine
  rw [h machine]
  exact .refl machine.files

theorem FillsIn.bind
    {attempt : Attempt α}
    {next : α → Attempt β}
    (hFirst : attempt.FillsIn writes)
    (hNext : ∀ a, (next a).FillsIn writes) :
    (attempt >>= next).FillsIn writes := by
  intro machine
  apply rel_on_bind
    (R := fun a b : Machine => a.files.FillsIn writes b.files)
    FileSystem.FillsIn.trans (hFirst machine)
  intro a between _
  exact hNext a between

theorem FillsIn.mono
    {attempt : Attempt α}
    (hMore : ∀ p bytes, writes p bytes → writes' p bytes)
    (h : attempt.FillsIn writes) :
    attempt.FillsIn writes' :=
  fun machine => (h machine).mono hMore

/- Writing what is missing, and that alone, is filling in. -/
theorem fillsIn_unless_contains
    {attempt : Attempt α}
    (hWrites :
      attempt.OnlyWrites fun other bytes =>
        other = p ∧ writes other bytes)
    (a : α) :
    FillsIn writes (do
      if ← (Host.contains p : Simulated Bool) then
        pure a
      else
        attempt) := by
  intro machine
  rw [on_bind_of_ok _ (on_contains p machine)]
  cases hThere : machine.files.contains p with
  | true => exact .refl machine.files
  | false =>
      apply FileSystem.Grows.mono _ (hWrites machine).1
      rintro _ bytes ⟨rfl, hBytes⟩
      exact ⟨hBytes, hThere⟩

end Attempt

------------------------------------------------------------
-- Set Up
------------------------------------------------------------

namespace Workspace

variable {config : Config} {t : Text} {failure : Failure}

/- A file that could not be written has changed no other file. -/
theorem fillsIn_of_writeFile_error
    {machine' : Machine}
    (h : Attempt.on (writeFile p t) machine =
      (.error failure, machine')) :
    machine.files.FillsIn writes machine'.files := by
  have hMade :
      machine.Grows (fun _ _ => False)
        (Attempt.on (makeParent p) machine).2 :=
    onlyWrites_makeParent p machine
  have hFills :
      machine.files.FillsIn writes
        (Attempt.on (makeParent p) machine).2.files :=
    hMade.1.mono fun _ _ => False.elim
  rw [writeFile] at h
  rcases hParent : Attempt.on (makeParent p) machine with
    ⟨fault | made, between⟩
  · rw [Attempt.on_bind_of_error _ hParent] at h
    rw [hParent] at hFills
    cases h
    exact hFills
  · rw [Attempt.on_bind_of_ok _ hParent, Attempt.on_attempt,
      Prod.mk.injEq] at h
    rw [hParent] at hFills
    rcases hWrite :
        Simulated.on (Host.writeText p t) between with
      ⟨fault | written, after⟩
    · have hChange :
          Simulated.on
              (Machine.changeFiles fun files =>
                files.write p (Utf8.encode t)) between =
            (.error fault, after) :=
        hWrite
      rw [hWrite] at h
      rw [← h.2, Simulated.eq_of_changeFiles_error hChange]
      exact hFills
    · rw [hWrite] at h
      cases h.1

/-
  What is written into a workspace where it is missing: the
  guide, the marker and empty inputs.
-/
inductive Supplies
    (config : Config) : Path → List UInt8 → Prop where
  | guide :
      Supplies config config.guidePath
        (Utf8.encode (guide config.separator))
  | marker
      (time : Text) :
      Supplies config config.markerPath
        (Utf8.encode (stamp time))
  | input :
      Supplies config config.inputPath []
  | parameters :
      Supplies config config.parametersPath []

/- A marker is written only where the marker was missing. -/
theorem fillsIn_provision (config : Config) :
    Attempt.FillsIn (Supplies config)
      (provision config false) := by
  intro machine
  cases hMarked : machine.files.contains config.markerPath with
  | true =>
      rw [provision_of_marked hMarked]
      exact .refl machine.files
  | false =>
      apply FileSystem.Grows.mono _
        (grows_of_provision config machine).1
      rintro p bytes (⟨hMissing, rfl, rfl⟩ | ⟨rfl, rfl⟩)
      · exact ⟨.guide, hMissing⟩
      · exact ⟨.marker machine.time, hMarked⟩

theorem fillsIn_ensureFile
    (hSupplies : Supplies config p []) :
    Attempt.FillsIn (Supplies config) (ensureFile p) := by
  apply Attempt.fillsIn_unless_contains
  apply (onlyWrites_writeFile ⟨rfl, hSupplies⟩).bind
  intro _
  exact .pure [p]

theorem fillsIn_ensureFiles
    {wanted : List Path}
    (hSupplies : ∀ p ∈ wanted, Supplies config p []) :
    Attempt.FillsIn (Supplies config) (ensureFiles wanted) := by
  induction wanted with
  | nil => exact Attempt.KeepsFiles.fillsIn fun _ => rfl
  | cons p wanted ih =>
      rw [List.forall_mem_cons] at hSupplies
      apply (fillsIn_ensureFile hSupplies.1).bind
      intro created
      apply (ih hSupplies.2).bind
      intro others
      exact Attempt.KeepsFiles.fillsIn fun _ => rfl

theorem fillsIn_ensureInputs
    (config : Config)
    (needParameters : Bool) :
    Attempt.FillsIn (Supplies config)
      (ensureInputs config needParameters) := by
  apply fillsIn_ensureFiles
  unfold inputs
  cases needParameters with
  | false => simpa using Supplies.input
  | true => simpa using ⟨Supplies.input, Supplies.parameters⟩

end Workspace

------------------------------------------------------------
-- Initialisation
------------------------------------------------------------

namespace Command

theorem onlyWrites_save
    {config : Config}
    (hWrites :
      writes p
        (Utf8.encode ((Config.Form.ofPath p).print config))) :
    Simulated.OnlyWrites writes (config.save p : Simulated _) := by
  have hParent :
      Simulated.OnlyWrites writes
        (Config.makeParent p : Simulated _) := by
    unfold Config.makeParent
    split
    · exact .pure _
    · exact (Simulated.onlyWrites_createDirectories _).bind
        fun _ => .pure _
  apply hParent.bind
  intro made
  cases made with
  | error fault => exact .pure _
  | ok made =>
      exact (Simulated.onlyWrites_write hWrites).bind
        fun _ => .pure _

theorem fillsIn_ensureConfigFile (config : Config) :
    Attempt.FillsIn (fun p _ => p = Config.localName)
      (ensureConfigFile config) := by
  apply Attempt.fillsIn_unless_contains
  apply (Attempt.OnlyWrites.attempt
    (onlyWrites_save ⟨rfl, rfl⟩)).bind
  intro _
  exact .pure [Config.localName]

/- What is shown is none of the files. -/
theorem keepsFiles_showProvisioning
    (config : Config)
    (done : Workspace.Provisioning) :
    Attempt.KeepsFiles
      (liftM (showProvisioning config done :
        Simulated Unit)) := by
  intro machine
  cases done <;> rfl

theorem keepsFiles_showCreated (created : List Path) :
    Attempt.KeepsFiles
      (liftM (showCreated created : Simulated Unit)) :=
  fun _ => rfl

theorem fillsIn_initialise (config : Config) :
    Attempt.FillsIn
      (fun p bytes =>
        Workspace.Supplies config p bytes ∨
          p = Config.localName)
      (initialise config false) := by
  unfold initialise
  apply ((Workspace.fillsIn_provision config).mono
    fun _ _ => Or.inl).bind
  intro provisioning
  apply Attempt.FillsIn.bind
  · exact (keepsFiles_showProvisioning config
      provisioning).fillsIn
  intro _
  apply ((Workspace.fillsIn_ensureInputs config true).mono
    fun _ _ => Or.inl).bind
  intro inputs
  apply Attempt.FillsIn.bind
  · exact (keepsFiles_showCreated inputs).fillsIn
  intro _
  apply ((fillsIn_ensureConfigFile config).mono
    fun _ _ => Or.inr).bind
  intro settings
  exact (keepsFiles_showCreated settings).fillsIn

end Command

end CodecChain
