import CodecChain.Proofs.Deflate.Searching
import CodecChain.Proofs.Workspace.Endings

/-
  Sequences of commands and the files they find. A command
  changes a file that is there in two ways alone: a run that
  completes replaces the file at its output path by its
  report, and a file supplied under a missing path is written
  over it, if the path climbs to it through a directory that
  has just been created for the path. The second way loses a
  file that should have been left alone; configurations
  without climbing paths do not know it.

  Key definitions include:
    * `Workspace.Errand`
    * `Workspace.Errand.after`
    * `Workspace.inTurn`
    * `Workspace.Replaces`

  Main statements:
    * `Command.perform_run`
    * `Workspace.Errand.read_after`
    * `Workspace.read_inTurn`
    * `Workspace.read_inTurn_of_straight`
    * `Workspace.inTurn_keeps_files`
-/

------------------------------------------------------------
-- Commands and Files
------------------------------------------------------------

namespace CodecChain

/- Showing how a run ended touches no file. -/
theorem Command.keepsFiles_showOutcome
    (config : Config)
    (outcome : Workspace.Outcome) :
    Attempt.KeepsFiles (showOutcome config outcome) := by
  intro machine
  cases outcome with
  | needsInput created => rfl
  | interrupted error reached => rfl
  | completed report e =>
      unfold showOutcome
      cases config.echoTrace <;> rfl

namespace Workspace

/-
  A command that works on a workspace, with all it is given:
  a run, with values from some source, or an initialisation
  that is not forced.
-/
inductive Errand [Compressor] where
  | run
      (config : Config)
      (instructions : Option Text)
      (source : Source)
  | init
      (config : Config)

variable [Compressor]

namespace Errand

/- The configuration of an errand. -/
def config : Errand → Config
  | run config _ _ => config
  | init config => config

/- What an errand does, and shows. -/
def attempt : Errand → Attempt Unit
  | run config instructions source => do
      let outcome ← Workspace.run config instructions
        source.provider source.carryOut
      Command.showOutcome config outcome
  | init config => Command.initialise config false

/- The machine after an errand, whether or not it failed. -/
def after
    (errand : Errand)
    (machine : Machine) : Machine :=
  (Attempt.on errand.attempt machine).2

end Errand

/- The machine after errands, one after the other. -/
def inTurn
    (machine : Machine)
    (errands : List Errand) : Machine :=
  errands.foldl (fun machine errand => errand.after machine)
    machine

end Workspace

namespace Command

variable [Compressor]

theorem runWorkspace_eq
    (config : Config)
    (instructions : Option Text)
    (values : List Text) :
    (runWorkspace config instructions values :
        Attempt Workspace.Outcome) =
      Workspace.run config instructions
        (Workspace.Source.ofValues values).provider
        (Workspace.Source.ofValues values).carryOut := by
  cases values <;> rfl

/- The commands of the program are such errands. -/
theorem perform_run
    (config : Config)
    (options : RunOptions) :
    (perform config (.run options) : Attempt Unit) =
      (Workspace.Errand.run (options.applyTo config)
        options.instructions
        (.ofValues options.values)).attempt := by
  rw [Workspace.Errand.attempt, ← runWorkspace_eq]
  rfl

theorem perform_init (config : Config) :
    (perform config (.init false) : Attempt Unit) =
      (Workspace.Errand.init config).attempt :=
  rfl

end Command

end CodecChain

------------------------------------------------------------
-- Single Errands
------------------------------------------------------------

namespace CodecChain

namespace Workspace

variable [Compressor]
variable {config : Config} {instructions : Option Text}
variable {source : Source} {errand : Errand}
variable {machine : Machine} {q : Path} {bytes : List UInt8}

/-
  How an errand can bring bytes under a path: they are the
  report of a run that completed, if the path names the file
  at its output, or what has been supplied under a missing
  path that climbs to the file.
-/
inductive Replaces
    (machine : Machine)
    (q : Path) :
    Errand → List UInt8 → Prop where
  | reported
      {config : Config}
      {instructions : Option Text}
      {source : Source}
      (c : Completion config instructions source machine)
      (hCompleted :
        (Attempt.on
          (run config instructions source.provider
            source.carryOut) machine).1 =
          .ok (.completed c.report c.execution))
      (hSame :
        let after :=
          (Errand.run config instructions source).after machine
        after.files.resolve config.outputPath =
          after.files.resolve q) :
      Replaces machine q (.run config instructions source)
        (Utf8.encode c.rendering)
  | exposed
      {errand : Errand}
      {bytes : List UInt8}
      (hExposed :
        machine.files.Exposes (Supplies errand.config)
          (errand.after machine).files q bytes) :
      Replaces machine q errand bytes

/-
  A run ends in one of the known ways, and the files are then
  those that the whole errand leaves.
-/
theorem exists_ends
    (config : Config)
    (instructions : Option Text)
    (source : Source)
    (machine : Machine) :
    ∃ result after,
      Attempt.on
          (run config instructions source.provider
            source.carryOut) machine = (result, after) ∧
        ((Errand.run config instructions source).after
          machine).files = after.files ∧
        Ends config instructions source machine
          (result, after) := by
  have hEnds := run_ends config instructions source machine
  rcases hRun :
      Attempt.on
        (run config instructions source.provider
          source.carryOut) machine with ⟨result, after⟩
  rw [hRun] at hEnds
  refine ⟨result, after, rfl, ?_, hEnds⟩
  unfold Errand.after Errand.attempt
  cases result with
  | error failure => rw [Attempt.on_bind_of_error _ hRun]
  | ok outcome =>
      rw [Attempt.on_bind_of_ok _ hRun]
      exact Command.keepsFiles_showOutcome config outcome after

/- An initialisation keeps what it does not expose. -/
theorem read_after_init
    (config : Config)
    (hRead : machine.files.read q = .ok bytes) :
    ∃ kept,
      ((Errand.init config).after machine).files.read q =
          .ok kept ∧
        (kept = bytes ∨
          Replaces machine q (.init config) kept) := by
  have hFills := Command.fillsIn_initialise config machine
  rcases hFills.kept_or_exposed hRead with
    ⟨kept, hKept, hWhy⟩
  refine ⟨kept, hKept, ?_⟩
  rcases hWhy with hSame | hExposed
  · exact Or.inl hSame
  · refine Or.inr (.exposed (hExposed.mono ?_))
    intro p written hWrites hClimbs
    rcases hWrites with hSupplied | rfl
    · exact hSupplied
    · exact absurd hClimbs (by decide)

/-
  A run keeps what it neither exposes nor names as its output.
  Its report is written last, over whatever is there then.
-/
theorem read_after_run
    (config : Config)
    (instructions : Option Text)
    (source : Source)
    (hRead : machine.files.read q = .ok bytes) :
    ∃ kept,
      ((Errand.run config instructions source).after
          machine).files.read q = .ok kept ∧
        (kept = bytes ∨
          Replaces machine q (.run config instructions source)
            kept) := by
  rcases exists_ends config instructions source machine with
    ⟨result, after, hRun, hFiles, hEnds⟩
  cases hEnds with
  | otherwise hNot hFills =>
      rcases hFills.kept_or_exposed hRead with
        ⟨kept, hKept, hWhy⟩
      rw [← hFiles] at hKept hWhy
      refine ⟨kept, hKept, ?_⟩
      rcases hWhy with hSame | hExposed
      · exact Or.inl hSame
      · exact Or.inr (.exposed hExposed)
  | completed c hWrite =>
      have hGrows := (grows_of_writeFile hWrite).1
      rcases c.fillsIn_ready.kept_or_exposed hRead with
        ⟨found, hFound, hWhy⟩
      rw [← c.files_asked] at hFound hWhy
      rcases hGrows.kept_or_written hFound with
        hKept | ⟨_, _, ⟨rfl, rfl⟩, hSame, hNew, -⟩
      · refine ⟨found, by rw [hFiles]; exact hKept, ?_⟩
        rcases hWhy with hOld | hExposed
        · exact Or.inl hOld
        · have hLater := hExposed.of_grows hFound hGrows
          rw [← hFiles] at hLater
          exact Or.inr (.exposed hLater)
      · rw [← hFiles] at hSame hNew
        exact ⟨_, hNew, Or.inr (.reported c
          (congrArg Prod.fst hRun) hSame)⟩

/- An errand keeps a file, or replaces it in a known way. -/
theorem Errand.read_after
    (errand : Errand)
    (hRead : machine.files.read q = .ok bytes) :
    ∃ kept,
      (errand.after machine).files.read q = .ok kept ∧
        (kept = bytes ∨ Replaces machine q errand kept) := by
  cases errand with
  | run config instructions source =>
      exact read_after_run config instructions source hRead
  | init config => exact read_after_init config hRead

/- A run that completes leaves its report at its output path. -/
theorem read_output_after_run
    {report : Report}
    {e : Execution}
    (hCompleted :
      (Attempt.on
        (run config instructions source.provider
          source.carryOut) machine).1 =
        .ok (.completed report e)) :
    ∃ c : Completion config instructions source machine,
      c.report = report ∧ c.execution = e ∧
        ((Errand.run config instructions source).after
            machine).files.read config.outputPath =
          .ok (Utf8.encode c.rendering) := by
  rcases exists_ends config instructions source machine with
    ⟨result, after, hRun, hFiles, hEnds⟩
  rw [hRun] at hCompleted
  cases hEnds with
  | completed c hWrite =>
      cases hCompleted
      rw [hFiles]
      exact ⟨c, rfl, rfl, read_of_writeFile hWrite⟩
  | otherwise hNot _ => exact absurd hCompleted (hNot report e)

------------------------------------------------------------
-- Errands in Turn
------------------------------------------------------------

/- A file is kept until an errand replaces it. -/
theorem read_inTurn
    (errands : List Errand)
    (hRead : machine.files.read q = .ok bytes) :
    ∃ kept,
      (inTurn machine errands).files.read q = .ok kept ∧
        (kept = bytes ∨
          ∃ front errand back,
            errands = front ++ errand :: back ∧
              Replaces (inTurn machine front) q errand kept) := by
  induction errands generalizing machine bytes with
  | nil => exact ⟨bytes, hRead, Or.inl rfl⟩
  | cons errand errands ih =>
      rcases errand.read_after hRead with
        ⟨found, hFound, hFirst⟩
      rcases ih hFound with ⟨kept, hKept, hLater⟩
      refine ⟨kept, hKept, ?_⟩
      rcases hLater with
        rfl | ⟨front, later, back, rfl, hReplaces⟩
      · rcases hFirst with rfl | hReplaces
        · exact Or.inl rfl
        · exact Or.inr ⟨[], errand, errands, rfl, hReplaces⟩
      · exact Or.inr
          ⟨errand :: front, later, back, rfl, hReplaces⟩

/-
  Where no path climbs, a file that is not at the output of a
  run that completes is as it was.
-/
theorem read_inTurn_of_straight
    {errands : List Errand}
    (hStraight :
      ∀ errand ∈ errands, ∀ p written,
        Supplies errand.config p written → p.climbs = false)
    (hOutputs :
      ∀ front config instructions source back report e,
        errands =
          front ++ .run config instructions source :: back →
        (Attempt.on
          (run config instructions source.provider
            source.carryOut) (inTurn machine front)).1 =
          .ok (.completed report e) →
        let after :=
          (Errand.run config instructions source).after
            (inTurn machine front)
        after.files.resolve config.outputPath ≠
          after.files.resolve q)
    (hRead : machine.files.read q = .ok bytes) :
    (inTurn machine errands).files.read q = .ok bytes := by
  rcases read_inTurn errands hRead with
    ⟨kept, hKept,
      rfl | ⟨front, errand, back, rfl, hReplaces⟩⟩
  · exact hKept
  cases hReplaces with
  | reported c hCompleted hSame =>
      exact absurd hSame
        (hOutputs front _ _ _ back _ _ rfl hCompleted)
  | exposed hExposed =>
      rcases hExposed with ⟨p, hSupplied, hClimbs, -⟩
      rw [hStraight errand (by simp) p _ hSupplied] at hClimbs
      cases hClimbs

/-
  Commands in turn keep the files that they find, whatever
  their configurations and sources are and however they end.
  A file is still there after them, as it was or as one of
  them has replaced it: by the report of a run that completed
  with the file at its output, or by what is supplied under a
  missing path that climbed to it. The report of a completed
  run is the one on the content and the instructions as they
  were read.
-/
theorem inTurn_keeps_files
    (machine : Machine)
    (errands : List Errand) :
    (∀ q bytes,
      machine.files.read q = .ok bytes →
      ∃ kept,
        (inTurn machine errands).files.read q = .ok kept ∧
          (kept = bytes ∨
            ∃ front errand back,
              errands = front ++ errand :: back ∧
                Replaces (inTurn machine front) q errand
                  kept)) ∧
    (∀ config instructions source report e,
      (Attempt.on
        (run config instructions source.provider
          source.carryOut) (inTurn machine errands)).1 =
        .ok (.completed report e) →
      ∃ c : Completion config instructions source
          (inTurn machine errands),
        c.report = report ∧ c.execution = e ∧
          (inTurn machine
            (errands ++
              [.run config instructions source])).files.read
                config.outputPath =
            .ok (Utf8.encode c.rendering)) := by
  constructor
  · intro q bytes hRead
    exact read_inTurn errands hRead
  · intro config instructions source report e hCompleted
    rcases read_output_after_run hCompleted with
      ⟨c, hReport, hExecution, hOutput⟩
    refine ⟨c, hReport, hExecution, ?_⟩
    rw [inTurn, List.foldl_append]
    exact hOutput

end Workspace

end CodecChain

------------------------------------------------------------
-- First Runs over a Content
------------------------------------------------------------

namespace CodecChain

namespace Workspace

/- A machine with one file in its working directory. -/
def holding
    (name : Text)
    (bytes : List UInt8) : Machine where
  files := (FileSystem.empty [.ofString "work"]).put
    [.ofString "work", name] (.file bytes)
  input := []
  output := []
  warnings := []
  time := []
  configDirectory := none

/-
  A first run over a content that is there: the content is
  kept, and the report is new.
-/
theorem inTurn_keeps_files_of_first_run :
    let machine :=
      holding (.ofString "Input.txt") [0x41, 0x41]
    let errand :=
      Errand.run .default (some (.ofString "E64")) (.ofValues [])
    let report : Report :=
      ⟨.ofString "AA", .ofString "E64", .ofString "D64",
        .ofString "QUE="⟩
    machine.files.read (.ofString "Input.txt") =
        .ok [0x41, 0x41] ∧
      (inTurn machine [errand]).files.read
          (.ofString "Input.txt") = .ok [0x41, 0x41] ∧
      (inTurn machine [errand]).files.read
          (.ofString "Processed.txt") =
        .ok (Utf8.encode report.render) := by
  intro machine errand report
  have hRead :
      machine.files.read (.ofString "Input.txt") =
        .ok [0x41, 0x41] := by
    rfl
  have hRun :
      (Attempt.on
        (run .default (some (.ofString "E64"))
          (Source.ofValues []).provider
          (Source.ofValues []).carryOut) machine).1 =
        .ok (.completed report
          ⟨.ofString "QUE=",
            [⟨1, .ofString "E64", .encoded .base64,
              .ofString "QUE="⟩], []⟩) := by
    apply Except.eq_ok_of_toOption
    decide +kernel
  have hOutput :
      (errand.after machine).files.resolve
          (.ofString "Processed.txt") ≠
        (errand.after machine).files.resolve
          (.ofString "Input.txt") := by
    intro hSame
    exact absurd (congrArg Except.toOption hSame)
      (by decide +kernel)
  have hStraight (p : Path) (written : List UInt8)
      (hSupplied : Supplies .default p written) :
      p.climbs = false := by
    cases hSupplied <;> decide
  refine ⟨hRead, ?_, ?_⟩
  · rcases (inTurn_keeps_files machine [errand]).1 _ _ hRead
      with ⟨kept, hKept, rfl |
        ⟨front, other, back, hErrands, hReplaces⟩⟩
    · exact hKept
    cases front with
    | cons first rest => simp at hErrands
    | nil =>
        rw [List.nil_append, List.cons.injEq] at hErrands
        rw [← hErrands.1] at hReplaces
        have hRuns :
            Replaces machine (.ofString "Input.txt")
              (.run .default (some (.ofString "E64"))
                (.ofValues [])) kept :=
          hReplaces
        cases hRuns with
        | reported c hCompleted hSame =>
            exact absurd hSame hOutput
        | exposed hExposed =>
            rcases hExposed with ⟨p, hSupplied, hClimbs, -⟩
            rw [hStraight p _ hSupplied] at hClimbs
            cases hClimbs
  · rcases (inTurn_keeps_files machine []).2 _ _ _ _ _ hRun with
      ⟨c, hReport, -, hWritten⟩
    rw [← hReport]
    exact hWritten

/-
  A missing path that climbs: a directory is created for it,
  and the file that it then names is emptied, by a run that
  goes on to ask for the content it has just lost.
-/
theorem exists_run_of_climbing_input :
    ∃ (config : Config) (machine : Machine),
      config.inputPath = .ofString "new/../Input.txt" ∧
        machine.files.read (.ofString "Input.txt") =
          .ok [0x41, 0x41] ∧
        (Attempt.on
          (run config (some (.ofString "E64"))
            (Source.ofValues []).provider
            (Source.ofValues []).carryOut) machine).1 =
          .ok (.needsInput [config.inputPath]) ∧
        ((Errand.run config (some (.ofString "E64"))
            (.ofValues [])).after machine).files.read
              (.ofString "Input.txt") = .ok [] := by
  let config : Config :=
    { Config.default with
      inputPath := .ofString "new/../Input.txt" }
  refine ⟨config, holding (.ofString "Input.txt") [0x41, 0x41],
    rfl, rfl, ?_, ?_⟩
  · apply Except.eq_ok_of_toOption
    decide +kernel
  · apply Except.eq_ok_of_toOption
    decide +kernel

end Workspace

end CodecChain
