import CodecChain.Proofs.Run.Stages
import CodecChain.Proofs.Workspace.Filling

/-
  How runs in a workspace end. A run that completes has read
  its content and its instructions, has run their chain and
  has written the report; any other run has done no more to
  the files than fill in what was missing.

  Key definitions include:
    * `Workspace.Source`
    * `Workspace.Completion`
    * `Workspace.Ends`

  Main statements:
    * `Chain.files_runIn`
    * `Workspace.run_ends`
-/

------------------------------------------------------------
-- Runs and Files
------------------------------------------------------------

namespace CodecChain

/- A provider on a machine that leaves its files alone. -/
def Provider.KeepsFiles (provider : Provider Simulated) : Prop :=
  ∀ step machine,
    (provider.ask step machine).2.files = machine.files

theorem Provider.keepsFiles_console :
    (console : Provider Simulated).KeepsFiles := by
  intro step machine
  rfl

section

variable [Compressor]

theorem Plan.files_performIn
    {provider : Provider Simulated}
    (hProvider : provider.KeepsFiles)
    (step : Nat)
    (plan : Plan)
    (content : Text)
    (machine : Machine) :
    (plan.performIn provider step content machine).2.files =
      machine.files := by
  cases plan with
  | skip cause => rfl
  | encode codec => rfl
  | decode codec => rfl
  | replace => exact hProvider step machine

namespace Chain

theorem files_runTokensIn
    {provider : Provider Simulated}
    (hProvider : provider.KeepsFiles)
    (tokens : List Token)
    (content : Text)
    (machine : Machine) :
    (runTokensIn provider tokens content machine).2.files =
      machine.files := by
  induction tokens generalizing content machine with
  | nil => rfl
  | cons token tokens ih =>
      have hKept :
          (token.performIn provider content machine).2.files =
            machine.files :=
        token.plan.files_performIn hProvider token.position
          content machine
      rcases hFirst :
          token.performIn provider content machine with
        ⟨fault | next, between⟩
      · rw [hFirst] at hKept
        rw [runTokensIn_cons_of_error hFirst]
        exact hKept
      · rw [hFirst] at hKept
        rw [runTokensIn_cons_of_ok hFirst]
        exact (ih next between).trans hKept

/- A run touches files only where its provider does. -/
theorem files_runIn
    {provider : Provider Simulated}
    (hProvider : provider.KeepsFiles)
    (chain : Chain)
    (content : Text)
    (machine : Machine) :
    (chain.runIn provider content machine).2.files =
      machine.files :=
  files_runTokensIn hProvider chain.tokens content machine

end Chain

end

------------------------------------------------------------
-- Reading
------------------------------------------------------------

namespace Workspace

theorem exists_on_readText
    (p : Path)
    (machine : Machine) :
    ∃ result,
      Simulated.on (Host.readText p) machine =
        (result, machine) := by
  have hRead :
      Simulated.on (Host.read p) machine =
        (machine.files.read p, machine) :=
    rfl
  rw [Host.readText, Simulated.on_bind, hRead]
  dsimp only
  cases machine.files.read p with
  | error fault => exact ⟨_, rfl⟩
  | ok bytes =>
      dsimp only
      cases Utf8.decode bytes with
      | error fault => exact ⟨_, rfl⟩
      | ok t => exact ⟨_, rfl⟩

/- Reading a file changes nothing on the machine. -/
theorem exists_on_readFile
    (p : Path)
    (trimmed : Bool)
    (machine : Machine) :
    ∃ result,
      Attempt.on (readFile p trimmed) machine =
        (result, machine) := by
  rcases exists_on_readText p machine with ⟨result, hText⟩
  have hAttempt :
      Attempt.on
          (Failure.attempt (.reading p)
            (Host.readText p : Simulated _)) machine =
        (result.mapError (.reading p), machine) := by
    rw [Attempt.on_attempt, hText]
  rw [readFile]
  cases result with
  | error fault =>
      exact ⟨_, Attempt.on_bind_of_error _ hAttempt⟩
  | ok t => exact ⟨_, Attempt.on_bind_of_ok _ hAttempt⟩

theorem exists_on_readInstructions
    (config : Config)
    (instructions : Option Text)
    (machine : Machine) :
    ∃ result,
      Attempt.on (readInstructions config instructions) machine =
        (result, machine) := by
  cases instructions with
  | some text => exact ⟨_, rfl⟩
  | none => exact exists_on_readFile _ _ machine

------------------------------------------------------------
-- Sources of Values
------------------------------------------------------------

/-
  Where the values of a run come from: a provider, and how
  what it does is carried out. None of this touches a file.
-/
structure Source [Compressor] where
  Answers : Type → Type
  [monad : Monad Answers]
  provider : Provider Answers
  carryOut :
    Answers CodecChain.Outcome → Simulated CodecChain.Outcome
  keeps :
    ∀ (chain : Chain) (content : Text) (machine : Machine),
      (Simulated.on (carryOut (chain.run provider content))
        machine).2.files = machine.files

attribute [instance] Source.monad

namespace Source

variable [Compressor]

/- Values from a provider that works on the machine itself. -/
def ofProvider
    (provider : Provider Simulated)
    (hProvider : provider.KeepsFiles) : Source where
  Answers := Simulated
  provider := provider
  carryOut := id
  keeps := Chain.files_runIn hProvider

/- Values from a provider that works apart from the machine. -/
def ofAnswers
    {n : Type → Type} [Monad n]
    (provider : Provider n)
    (result : n CodecChain.Outcome → CodecChain.Outcome) :
    Source where
  Answers := n
  provider := provider
  carryOut := fun answers => pure (result answers)
  keeps := fun _ _ _ => rfl

/-
  The source that a command uses for the values it was given,
  and for none of them the console.
-/
def ofValues : List Text → Source
  | [] => ofProvider .console Provider.keepsFiles_console
  | values => ofAnswers .scripted fun run => (run values).1

end Source

------------------------------------------------------------
-- Completed Runs
------------------------------------------------------------

variable [Compressor]
variable {config : Config} {instructions : Option Text}
variable {source : Source} {machine ready after : Machine}

/-
  The course of a run up to its report: set up, with inputs
  that are all there, the content and the instructions as
  they are read, and the run of their chain.
-/
structure Completion
    (config : Config)
    (instructions : Option Text)
    (source : Source)
    (machine : Machine) where
  done : Provisioning
  ready : Machine
  content : Text
  text : Text
  chain : Chain
  execution : Execution
  asked : Machine
  provisioned :
    Attempt.on (provision config false) machine =
      (.ok done, ready)
  complete :
    Attempt.on (ensureInputs config instructions.isNone) ready =
      (.ok [], ready)
  contentRead :
    Attempt.on (readFile config.inputPath config.trimContent)
      ready = (.ok content, ready)
  textRead :
    Attempt.on (readInstructions config instructions) ready =
      (.ok text, ready)
  parsed : Chain.parse config.separator text = .ok chain
  executed :
    Simulated.on
        (source.carryOut (chain.run source.provider content))
        ready =
      (.completed execution, asked)

namespace Completion

/- The report on the run. -/
def report
    (c : Completion config instructions source machine) :
    Report :=
  Report.compose c.content c.chain c.execution.content

/- The report as it is written. -/
def rendering
    (c : Completion config instructions source machine) : Text :=
  reportText config.reportFormat c.report c.execution

theorem fillsIn_ready
    (c : Completion config instructions source machine) :
    machine.files.FillsIn (Supplies config)
      c.ready.files := by
  have hFills := fillsIn_provision config machine
  rwa [c.provisioned] at hFills

theorem files_asked
    (c : Completion config instructions source machine) :
    c.asked.files = c.ready.files := by
  have hKept := source.keeps c.chain c.content c.ready
  rwa [c.executed] at hKept

end Completion

------------------------------------------------------------
-- Endings
------------------------------------------------------------

/-
  How a run ends. It completes where the report is written
  after all else has been done, and has otherwise filled in
  what was missing at most.
-/
inductive Ends
    (config : Config)
    (instructions : Option Text)
    (source : Source)
    (machine : Machine) :
    Except Failure Outcome × Machine → Prop where
  | completed
      {after : Machine}
      (c : Completion config instructions source machine)
      (hWrite :
        Attempt.on (writeFile config.outputPath c.rendering)
          c.asked = (.ok (), after)) :
      Ends config instructions source machine
        (.ok (.completed c.report c.execution), after)
  | otherwise
      {result : Except Failure Outcome}
      {after : Machine}
      (hNot :
        ∀ report e, result ≠ .ok (.completed report e))
      (hFills :
        machine.files.FillsIn (Supplies config)
          after.files) :
      Ends config instructions source machine (result, after)

/- The report is written last, or not at all. -/
theorem writeReport_ends
    (c : Completion config instructions source machine) :
    Ends config instructions source machine
      (Attempt.on
        (writeReport config c.chain c.content c.execution)
        c.asked) := by
  have hFills :
      machine.files.FillsIn (Supplies config)
        c.asked.files := by
    rw [c.files_asked]
    exact c.fillsIn_ready
  have hReport :
      writeReport config c.chain c.content c.execution =
        (do
          writeFile config.outputPath c.rendering
          pure (.completed c.report c.execution) :
          Attempt Outcome) :=
    rfl
  rw [hReport]
  rcases hWrite :
      Attempt.on (writeFile config.outputPath c.rendering)
        c.asked with ⟨failure | ⟨⟩, after⟩
  · rw [Attempt.on_bind_of_error _ hWrite]
    exact .otherwise nofun
      (hFills.trans (fillsIn_of_writeFile_error hWrite))
  · rw [Attempt.on_bind_of_ok _ hWrite]
    exact .completed c hWrite

/- A run with all its inputs ends in one of these ways. -/
theorem runReady_ends
    {done : Provisioning}
    (hProvision :
      Attempt.on (provision config false) machine =
        (.ok done, ready))
    (hInputs :
      Attempt.on (ensureInputs config instructions.isNone)
        ready = (.ok [], ready)) :
    Ends config instructions source machine
      (Attempt.on
        (runReady config instructions source.provider
          source.carryOut) ready) := by
  have hFills :
      machine.files.FillsIn (Supplies config)
        ready.files := by
    have hProvisioned := fillsIn_provision config machine
    rwa [hProvision] at hProvisioned
  rw [runReady]
  rcases exists_on_readFile config.inputPath config.trimContent
    ready with ⟨failure | content, hContent⟩
  · rw [Attempt.on_bind_of_error _ hContent]
    exact .otherwise nofun hFills
  rw [Attempt.on_bind_of_ok _ hContent]
  rcases exists_on_readInstructions config instructions ready
    with ⟨failure | text, hText⟩
  · rw [Attempt.on_bind_of_error _ hText]
    exact .otherwise nofun hFills
  rw [Attempt.on_bind_of_ok _ hText]
  have hParsed :
      Attempt.on
          (Failure.attempt .noInstructions
            (pure (Chain.parse config.separator text) :
              Simulated _)) ready =
        ((Chain.parse config.separator text).mapError
          .noInstructions, ready) :=
    rfl
  cases hChain : Chain.parse config.separator text with
  | error fault =>
      rw [hChain] at hParsed
      rw [Attempt.on_bind_of_error _ hParsed]
      exact .otherwise nofun hFills
  | ok chain =>
      rw [hChain] at hParsed
      rw [Attempt.on_bind_of_ok _ hParsed]
      have hKept := source.keeps chain content ready
      rcases hRun :
          Simulated.on
            (source.carryOut (chain.run source.provider content))
            ready with ⟨outcome, asked⟩
      have hAsked :
          Attempt.on
              (liftM (source.carryOut
                (chain.run source.provider content))) ready =
            (.ok outcome, asked) := by
        rw [Attempt.on_lift, hRun]
      rw [hRun] at hKept
      rw [Attempt.on_bind_of_ok _ hAsked]
      cases outcome with
      | interrupted error reached =>
          refine .otherwise nofun ?_
          rw [hKept]
          exact hFills
      | completed e =>
          exact writeReport_ends
            { done := done
              ready := ready
              content := content
              text := text
              chain := chain
              execution := e
              asked := asked
              provisioned := hProvision
              complete := hInputs
              contentRead := hContent
              textRead := hText
              parsed := hChain
              executed := hRun }

/- Every run ends in one of these ways. -/
theorem run_ends
    (config : Config)
    (instructions : Option Text)
    (source : Source)
    (machine : Machine) :
    Ends config instructions source machine
      (Attempt.on
        (run config instructions source.provider source.carryOut)
        machine) := by
  have hProvisioned := fillsIn_provision config machine
  rw [run]
  rcases hProvision :
      Attempt.on (provision config false) machine with
    ⟨failure | done, ready⟩
  · rw [hProvision] at hProvisioned
    rw [Attempt.on_bind_of_error _ hProvision]
    exact .otherwise nofun hProvisioned
  rw [hProvision] at hProvisioned
  rw [Attempt.on_bind_of_ok _ hProvision]
  have hEnsured := fillsIn_ensureInputs config
    instructions.isNone ready
  rcases hInputs :
      Attempt.on (ensureInputs config instructions.isNone)
        ready with ⟨failure | created, after⟩
  · rw [hInputs] at hEnsured
    rw [Attempt.on_bind_of_error _ hInputs]
    exact .otherwise nofun (hProvisioned.trans hEnsured)
  rw [hInputs] at hEnsured
  rw [Attempt.on_bind_of_ok _ hInputs]
  cases created with
  | cons p ps =>
      exact .otherwise nofun (hProvisioned.trans hEnsured)
  | nil =>
      have hSame : after = ready :=
        (ensureFiles_eq_ok_iff.mp hInputs).after_eq_of_nil
      subst hSame
      exact runReady_ends hProvision hInputs

end Workspace

end CodecChain
