import CodecChain.Workspace.Run
import CodecChain.Proofs.Deflate.Searching
import CodecChain.Proofs.Workspace.Inputs

/-
  Runs with missing inputs. A run stops exactly if an input is
  missing that set up does not bring into being itself: an
  input that is the guide, the marker or a directory made for
  them is there before it is looked for, and is then read.

  Key definitions include:
    * `Workspace.SetUpSupplies`
    * `Workspace.Stopped`

  Main statements:
    * `Workspace.contains_of_provision_iff`
    * `Workspace.stops_iff_input_missing`
-/

namespace CodecChain

namespace Workspace

variable {machine ready after : Machine} {p : Path}
variable {config : Config} {instructions : Option Text}
variable {done : Provisioning} {created : List Path}

------------------------------------------------------------
-- Supplied Inputs
------------------------------------------------------------

/-
  A path that names something after set up and did not name it
  before: it leads through a directory that is new, or names
  such a directory, the guide or the marker.
-/
def SetUpSupplies
    (config : Config)
    (machine ready : Machine)
    (p : Path) : Prop :=
  machine.files.contains config.markerPath = false ∧
    ∃ place entry,
      ready.files.resolve p = .ok place ∧
        ready.files.get? place = some entry ∧
        (machine.files.resolve p ≠ .ok place ∨
          (machine.files.get? place = none ∧
            entry = .directory) ∨
          (machine.files.contains config.guidePath = false ∧
            ready.files.resolve config.guidePath = .ok place) ∨
          ready.files.resolve config.markerPath = .ok place)

theorem grows_of_ready
    (hReady : Attempt.on (provision config false) machine =
      (.ok done, ready)) :
    machine.Grows (SetUpWrites config machine) ready := by
  have hGrows := grows_of_provision config machine
  rwa [hReady] at hGrows

/- In a marked workspace set up brings nothing into being. -/
theorem contains_marker_of_new
    (hReady : Attempt.on (provision config false) machine =
      (.ok done, ready))
    (hMissing : machine.files.contains p = false)
    (hThere : ready.files.contains p = true) :
    machine.files.contains config.markerPath = false := by
  cases hMarked : machine.files.contains config.markerPath with
  | false => rfl
  | true =>
      rw [provision_of_marked hMarked] at hReady
      cases hReady
      rw [hMissing] at hThere
      cases hThere

/- After set up, what is there was there or is supplied. -/
theorem contains_of_provision_iff
    (hReady : Attempt.on (provision config false) machine =
      (.ok done, ready)) :
    ready.files.contains p = true ↔
      machine.files.contains p = true ∨
        SetUpSupplies config machine ready p := by
  have hGrows := (grows_of_ready hReady).1
  constructor
  · intro hThere
    cases hBefore : machine.files.contains p with
    | true => exact Or.inl rfl
    | false =>
        refine Or.inr
          ⟨contains_marker_of_new hReady hBefore hThere, ?_⟩
        rcases FileSystem.contains_eq_true_iff.mp hThere with
          ⟨place, entry, hPlace, hEntry⟩
        refine ⟨place, entry, hPlace, hEntry, ?_⟩
        cases hGrows.grewAt place with
        | kept hSame =>
            refine Or.inl ?_
            intro hOld
            rw [hSame] at hEntry
            have hContains :=
              FileSystem.contains_eq_true_iff.mpr
                ⟨place, entry, hOld, hEntry⟩
            rw [hBefore] at hContains
            cases hContains
        | directory hFree hAfter =>
            rw [hAfter] at hEntry
            cases hEntry
            exact Or.inr (Or.inl ⟨hFree, rfl⟩)
        | file _ hWrites hWritten _ =>
            rcases hWrites with ⟨hGuide, rfl, -⟩ | ⟨rfl, -⟩
            · exact Or.inr (Or.inr (Or.inl ⟨hGuide, hWritten⟩))
            · exact Or.inr (Or.inr (Or.inr hWritten))
  · rintro (hBefore | ⟨-, place, entry, hPlace, hEntry, -⟩)
    · exact hGrows.contains hBefore
    · exact FileSystem.contains_eq_true_iff.mpr
        ⟨place, entry, hPlace, hEntry⟩

------------------------------------------------------------
-- Stopped Runs
------------------------------------------------------------

/-
  What a stopped run leaves behind: wanted files that were
  missing, listed once each and empty now, and next to them
  nothing but the guide, the marker and directories. Input
  and output of the machine are as before.
-/
structure Stopped
    (config : Config)
    (wanted created : List Path)
    (machine ready after : Machine) : Prop where
  listed : created ≠ [] ∧ created.Nodup ∧ created.Sublist wanted
  missing :
    ∀ p ∈ created,
      machine.files.contains p = false ∧
        ¬SetUpSupplies config machine ready p
  empty : ∀ p ∈ created, after.files.read p = .ok []
  complete :
    ∀ front p back, wanted = front ++ p :: back →
      p ∈ created ∨
        ∃ made between,
          Ensures ready front made between ∧
            between.files.contains p = true
  same : after = { machine with files := after.files }
  grown :
    machine.files.Grows
      (fun p bytes =>
        SetUpWrites config machine p bytes ∨
          (p ∈ created ∧ bytes = []))
      after.files

theorem stopped_of_created
    {wanted : List Path}
    (hReady : Attempt.on (provision config false) machine =
      (.ok done, ready))
    (hEnsures : Ensures ready wanted created after)
    (hSome : created ≠ []) :
    Stopped config wanted created machine ready after := by
  have hGrows :
      machine.Grows
        (fun p bytes =>
          SetUpWrites config machine p bytes ∨
            (p ∈ created ∧ bytes = []))
        after :=
    ((grows_of_ready hReady).mono fun _ _ => Or.inl).trans
      (hEnsures.grows.mono fun _ _ => Or.inr)
  refine
    { listed := ⟨hSome, hEnsures.nodup, hEnsures.sublist⟩
      missing := ?_
      empty := fun p hMem => hEnsures.read_of_mem hMem
      complete := ?_
      same := hGrows.2
      grown := hGrows.1 }
  · intro p hMem
    have hNot : ready.files.contains p ≠ true :=
      fun hThere => hEnsures.not_mem_of_contains hThere hMem
    rw [Ne, contains_of_provision_iff hReady, not_or] at hNot
    exact ⟨Bool.eq_false_iff.mpr hNot.1, hNot.2⟩
  · rintro front p back rfl
    exact hEnsures.mem_or_contains

------------------------------------------------------------
-- Runs After Set Up
------------------------------------------------------------

variable [Compressor]
variable {n : Type → Type} [Monad n]

theorem on_run
    (provider : Provider n)
    (carryOut : n CodecChain.Outcome → Simulated CodecChain.Outcome)
    (hReady : Attempt.on (provision config false) machine =
      (.ok done, ready))
    (hCreated :
      Attempt.on (ensureInputs config instructions.isNone) ready =
        (.ok created, after)) :
    Attempt.on (run config instructions provider carryOut)
        machine =
      if created = [] then
        Attempt.on
          (runReady config instructions provider carryOut) after
      else
        (.ok (.needsInput created), after) := by
  rw [run, Attempt.on_bind_of_ok _ hReady,
    Attempt.on_bind_of_ok _ hCreated]
  cases created <;> rfl

/- A run with all its inputs does not ask for them. -/
theorem runReady_ne_needsInput
    (provider : Provider n)
    (carryOut : n CodecChain.Outcome → Simulated CodecChain.Outcome)
    (listed : List Path) :
    Attempt.on (runReady config instructions provider carryOut)
      machine ≠ (.ok (.needsInput listed), after) := by
  intro h
  rw [runReady] at h
  rcases Attempt.on_bind_eq_ok_iff.mp h with
    ⟨content, _, -, h⟩
  rcases Attempt.on_bind_eq_ok_iff.mp h with ⟨source, _, -, h⟩
  rcases Attempt.on_bind_eq_ok_iff.mp h with ⟨chain, _, -, h⟩
  rcases Attempt.on_bind_eq_ok_iff.mp h with ⟨outcome, _, -, h⟩
  cases outcome with
  | completed e =>
      rcases Attempt.on_bind_eq_ok_iff.mp h with ⟨_, _, -, h⟩
      cases h
  | interrupted error reached => cases h

/-
  A run stops exactly if a wanted input is missing that set up
  does not supply. It then lists what it has created, and has
  executed nothing, whatever the provider is; otherwise it
  goes on with the files that set up has left.
-/
theorem stops_iff_input_missing
    (config : Config)
    (instructions : Option Text)
    (provider : Provider n)
    (carryOut : n CodecChain.Outcome → Simulated CodecChain.Outcome)
    (hReady : Attempt.on (provision config false) machine =
      (.ok done, ready))
    (hCreated :
      Attempt.on (ensureInputs config instructions.isNone) ready =
        (.ok created, after)) :
    let wanted := inputs config instructions.isNone
    let outcome :=
      Attempt.on (run config instructions provider carryOut)
        machine
    ((∃ p ∈ wanted,
        machine.files.contains p = false ∧
          ¬SetUpSupplies config machine ready p) →
      outcome = (.ok (.needsInput created), after) ∧
        Stopped config wanted created machine ready after) ∧
    ((∀ p ∈ wanted,
        machine.files.contains p = false →
          SetUpSupplies config machine ready p) →
      outcome =
          Attempt.on
            (runReady config instructions provider carryOut)
            ready ∧
        ∀ listed final,
          outcome ≠ (.ok (.needsInput listed), final)) := by
  intro wanted outcome
  have hOutcome := on_run provider carryOut hReady hCreated
  have hEnsures := ensureFiles_eq_ok_iff.mp hCreated
  constructor
  · rintro ⟨p, hWanted, hMissing, hNot⟩
    have hSome : created ≠ [] := by
      intro hNone
      have hThere :=
        hEnsures.created_eq_nil_iff.mp hNone p hWanted
      rw [contains_of_provision_iff hReady] at hThere
      rcases hThere with hBefore | hSupplied
      · rw [hMissing] at hBefore
        cases hBefore
      · exact hNot hSupplied
    rw [if_neg hSome] at hOutcome
    exact ⟨hOutcome, stopped_of_created hReady hEnsures hSome⟩
  · intro hSupplied
    have hNone : created = [] := by
      apply hEnsures.created_eq_nil_iff.mpr
      intro p hWanted
      rw [contains_of_provision_iff hReady]
      cases hBefore : machine.files.contains p with
      | true => exact Or.inl rfl
      | false => exact Or.inr (hSupplied p hWanted hBefore)
    subst hNone
    rw [if_pos rfl, hEnsures.after_eq_of_nil] at hOutcome
    refine ⟨hOutcome, ?_⟩
    intro listed final hStops
    exact runReady_ne_needsInput provider carryOut listed
      (hOutcome.symm.trans hStops)

end Workspace

end CodecChain

------------------------------------------------------------
-- First Runs
------------------------------------------------------------

namespace CodecChain

namespace Workspace

/- A machine without any files. -/
def blank : Machine where
  files := .empty [.ofString "work"]
  input := []
  output := []
  warnings := []
  time := []
  configDirectory := none

/-
  Where nothing has been set up, the first run asks for both
  inputs, and does so without asking the provider.
-/
theorem stops_iff_input_missing_of_blank :
    ∃ done ready after,
      Attempt.on (provision .default false) blank =
          (.ok done, ready) ∧
        Attempt.on (ensureInputs .default true) ready =
          (.ok [.ofString "Input.txt", .ofString "Parameters.txt"],
            after) ∧
        Attempt.on
            (run .default none
              (Provider.failing [] : Provider Simulated) id)
            blank =
          (.ok (.needsInput
            [.ofString "Input.txt", .ofString "Parameters.txt"]),
            after) ∧
        after.files.read (.ofString "Input.txt") = .ok [] := by
  have hStops :
      (Attempt.on
          (run .default none
            (Provider.failing [] : Provider Simulated) id)
          blank).1.toOption =
        some (.needsInput
          [.ofString "Input.txt",
            .ofString "Parameters.txt"]) := by
    decide +kernel
  rcases hRun : Attempt.on
      (run .default none
        (Provider.failing [] : Provider Simulated) id)
      blank with ⟨failure | outcome, final⟩
  · rw [hRun] at hStops
    cases hStops
  rw [hRun] at hStops
  cases hStops
  rcases Attempt.on_bind_eq_ok_iff.mp hRun with
    ⟨done, ready, hReady, hRest⟩
  rcases Attempt.on_bind_eq_ok_iff.mp hRest with
    ⟨created, after, hCreated, -⟩
  have hExact := stops_iff_input_missing .default none
    (Provider.failing [] : Provider Simulated) id hReady hCreated
  have hMissing :
      ∃ p ∈ inputs .default true,
        blank.files.contains p = false ∧
          ¬SetUpSupplies .default blank ready p := by
    apply Classical.byContradiction
    intro hNone
    refine (hExact.2 ?_).2 _ _ hRun
    intro p hWanted hBefore
    apply Classical.byContradiction
    intro hNot
    exact hNone ⟨p, hWanted, hBefore, hNot⟩
  rcases hExact.1 hMissing with ⟨hOutcome, hStopped⟩
  rw [hRun] at hOutcome
  cases hOutcome
  exact ⟨done, ready, final, hReady, hCreated, rfl,
    hStopped.empty _ List.mem_cons_self⟩

/- A guide in the directory above is no input. -/
example :
    (Attempt.on
        (run
          { Config.default with
            guidePath := .ofString "../Input.txt" }
          (some (.ofString "E64"))
          (Provider.failing [] : Provider Simulated) id)
        blank).1.toOption =
      some (.needsInput [.ofString "Input.txt"]) := by
  decide +kernel

/-
  With the input for a guide, the input is missing before the
  run and no run asks for it: the guide is taken for it.
-/
theorem exists_run_of_guide :
    ∃ (config : Config) (done : Provisioning) (ready : Machine),
      config.guidePath = config.inputPath ∧
        blank.files.contains config.inputPath = false ∧
        Attempt.on (provision config false) blank =
          (.ok done, ready) ∧
        Attempt.on (ensureInputs config false) ready =
          (.ok [], ready) ∧
        ∀ (n : Type → Type) [Monad n] (provider : Provider n)
          (carryOut :
            n CodecChain.Outcome → Simulated CodecChain.Outcome)
          (listed : List Path) (final : Machine),
          Attempt.on
              (run config (some (.ofString "E64")) provider
                carryOut) blank ≠
            (.ok (.needsInput listed), final) := by
  let config : Config :=
    { Config.default with guidePath := .ofString "Input.txt" }
  let ready := (Attempt.on (provision config false) blank).2
  have hDone :
      (Attempt.on (provision config false) blank).1.toOption =
        some (.provisioned
          [.ofString "Input.txt", .ofString "SetupCheck"]) := by
    decide +kernel
  have hThere : ready.files.contains config.inputPath = true := by
    decide +kernel
  rcases hReady : Attempt.on (provision config false) blank with
    ⟨failure | done, ready'⟩
  · rw [hReady] at hDone
    cases hDone
  have hSame : ready = ready' := congrArg Prod.snd hReady
  rw [hSame] at hThere
  have hCreated :
      Attempt.on (ensureInputs config false) ready' =
        (.ok [], ready') :=
    ensureFiles_eq_ok_iff.mpr (.present hThere .nil)
  refine ⟨config, done, ready', rfl, rfl, hReady, hCreated, ?_⟩
  intro n _ provider carryOut listed final hStops
  have hCalled :
      Attempt.on
          (ensureInputs config
            (some (Text.ofString "E64")).isNone) ready' =
        (.ok [], ready') :=
    hCreated
  rw [on_run provider carryOut hReady hCalled, if_pos rfl]
    at hStops
  exact runReady_ne_needsInput provider carryOut listed hStops

end Workspace

end CodecChain
